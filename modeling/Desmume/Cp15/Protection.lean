import Desmume.Cp15.Cp15Defs
import Desmume.Library.BitFields
import Desmume.Library.Run

/-! The access check against the protection registers: when the masks that every write
recomputes say what the registers say. -/

namespace Desmume.Cp15

open Desmume.Arm Desmume.Library

/-! ### What the registers allow -/

namespace Access

def isExecute : Access → Bool
  | .EXECUSR | .EXECSYS => true
  | _ => false

/-- The accesses that each permission code grants. -/
def grantedBy : Access → List ℕ
  | .WRITEUSR => [3]
  | .WRITESYS => [1, 2, 3]
  | .READUSR | .EXECUSR => [2, 3, 6]
  | .READSYS | .EXECSYS => [1, 2, 3, 5, 6]

end Access

/-- The size of a region: a power of two, of 64 bytes at least. -/
def regionSize (val : Word) : ℕ := 2 ^ max 6 (sizeIdentifier val + 1)

/-- The base of a region, aligned down to its size. -/
def regionBase (val : Word) : ℕ := val.toNat / regionSize val * regionSize val

/-- An enabled region contains the address. -/
def Contains (val address : Word) : Prop :=
  val.getLsbD 0 = true ∧ regionBase val ≤ address.toNat ∧
    address.toNat < regionBase val + regionSize val

/-- The values of the protection registers. -/
@[ext]
structure Registers where
  DaccessPerm : Word
  IaccessPerm : Word
  protectBaseSize : Fin 8 → Word

namespace Registers

/-- The permission code of a region for a kind of access. -/
def code (r : Registers) (a : Access) (i : Fin 8) : ℕ :=
  accessType (if a.isExecute then r.IaccessPerm else r.DaccessPerm) i

def Grants (r : Registers) (address : Word) (a : Access) (i : Fin 8) : Prop :=
  Contains (r.protectBaseSize i) address ∧ r.code a i ∈ a.grantedBy

def Allows (r : Registers) (address : Word) (a : Access) : Prop := ∃ i, r.Grants address a i

end Registers

def Armcp15.registers (cp : Armcp15) : Registers :=
  ⟨cp.DaccessPerm, cp.IaccessPerm, cp.protectBaseSize⟩

/-! ### The masks of a region -/

theorem sizeIdentifier_lt (val : Word) : sizeIdentifier val < 32 := by
  have h : sizeIdentifier val = (val >>> 1).toNat % 32 := by
    rw [sizeIdentifier, BitVec.toNat_and]
    exact Nat.and_two_pow_sub_one_eq_mod _ 5
  omega

/-- Below 4 GB the mask clears the bits under the size of the region. -/
theorem maskFromReg_eq {val : Word} (h : sizeIdentifier val ≠ 0x1F) :
    (maskFromReg val).toNat = 2 ^ 32 - regionSize val := by
  have hlt := sizeIdentifier_lt val
  unfold maskFromReg sizeBinary regionSize
  generalize sizeIdentifier val = k at h hlt
  interval_cases k <;> rfl

/-- The test of an enabled region is that the address lies in it. -/
theorem precalc_iff (val address : Word) :
    address &&& (precalc val).mask = (precalc val).set ↔ Contains val address := by
  have hlt := sizeIdentifier_lt val
  unfold precalc Contains
  split_ifs with henabled hall
  · have hsize : regionSize val = 2 ^ 32 := by
      rw [regionSize, hall]
      rfl
    have hbase : regionBase val = 0 := by
      rw [regionBase, hsize, Nat.div_eq_of_lt val.isLt, Nat.zero_mul]
    refine iff_of_true BitVec.and_zero ⟨henabled, ?_, ?_⟩
    · rw [hbase]
      exact Nat.zero_le _
    · rw [hbase, hsize, Nat.zero_add]
      exact address.isLt
  · rw [setFromReg, and_highMask_eq_iff (k := max 6 (sizeIdentifier val + 1)) (by omega)
      (maskFromReg_eq hall), and_iff_right henabled]
    rfl
  · refine iff_of_false ?_ fun h => henabled h.1
    rw [MaskSet.deny, show address &&& (0 : Word) = 0 from BitVec.and_zero]
    decide

theorem not_deny (address : Word) :
    address &&& MaskSet.deny.mask ≠ MaskSet.deny.set := by
  rw [MaskSet.deny, show address &&& (0 : Word) = 0 from BitVec.and_zero]
  decide

/-! ### What one recomputation leaves -/

namespace Armcp15

/-- The code 5 in `IaccessPerm`, which the second `switch` leaves out. -/
def Missed (r : Registers) (a : Access) (i : Fin 8) : Prop := a.isExecute = true ∧ r.code a i = 5

instance (r : Registers) (a : Access) (i : Fin 8) : Decidable (Missed r a i) :=
  inferInstanceAs (Decidable (_ ∧ _))

/-- The entry that the registers ask for. -/
def entry (r : Registers) (a : Access) (i : Fin 8) : MaskSet :=
  if r.code a i ∈ a.grantedBy then precalc (r.protectBaseSize i) else .deny

theorem setRegion_region (cp : Armcp15) (a b : Access) (num i : Fin 8) (m : MaskSet) :
    (cp.setRegion a num m).region b i = if b = a ∧ i = num then m else cp.region b i := by
  rw [setRegion]
  by_cases hb : b = a
  · subst hb
    by_cases hi : i = num
    · subst hi
      simp
    · simp [hi]
  · simp [hb]

theorem setDataAccess_region (cp : Armcp15) (num : Fin 8) (m : MaskSet) (a : Access) (i : Fin 8) :
    (cp.setDataAccess num m).region a i =
      if a.isExecute = false ∧ i = num then
        if accessType cp.DaccessPerm num ∈ a.grantedBy then m else .deny
      else cp.region a i := by
  unfold setDataAccess setData
  generalize accessType cp.DaccessPerm num = code
  split <;> cases a <;> grind [setRegion_region, Access.isExecute, Access.grantedBy]

theorem setExecuteAccess_region (cp : Armcp15) (num : Fin 8) (m : MaskSet) (a : Access) (i : Fin 8) :
    (cp.setExecuteAccess num m).region a i =
      if a.isExecute = true ∧ i = num ∧ accessType cp.IaccessPerm num ≠ 5 then
        if accessType cp.IaccessPerm num ∈ a.grantedBy then m else .deny
      else cp.region a i := by
  unfold setExecuteAccess setExecute
  generalize accessType cp.IaccessPerm num = code
  split <;> cases a <;> grind [setRegion_region, Access.isExecute, Access.grantedBy]

theorem setDataAccess_frame (cp : Armcp15) (num : Fin 8) (m : MaskSet) :
    cp.setDataAccess num m = { cp with region := (cp.setDataAccess num m).region } := by
  unfold setDataAccess
  split <;> rfl

theorem setExecuteAccess_frame (cp : Armcp15) (num : Fin 8) (m : MaskSet) :
    cp.setExecuteAccess num m = { cp with region := (cp.setExecuteAccess num m).region } := by
  unfold setExecuteAccess
  split <;> rfl

/-- The step of `maskPrecalc` for one region: it overwrites the entries of that region, but for
those of a missed code. -/
theorem setSingleRegionAccess_eq (cp : Armcp15) (num : Fin 8) :
    cp.setSingleRegionAccess num (precalc (cp.protectBaseSize num)) =
      { cp with
        region := fun a i =>
          if i = num ∧ ¬ Missed cp.registers a i then entry cp.registers a i
          else cp.region a i } := by
  have hframe : cp.setSingleRegionAccess num (precalc (cp.protectBaseSize num)) = { cp with
      region := (cp.setSingleRegionAccess num (precalc (cp.protectBaseSize num))).region } := by
    rw [setSingleRegionAccess, setExecuteAccess_frame, setDataAccess_frame]
  rw [hframe]
  congr 1
  funext a i
  have hI : (cp.setDataAccess num (precalc (cp.protectBaseSize num))).IaccessPerm = cp.IaccessPerm := by
    rw [setDataAccess_frame]
  rw [setSingleRegionAccess, setExecuteAccess_region, setDataAccess_region, hI]
  by_cases hi : i = num
  · subst hi
    cases ha : a.isExecute <;> simp [Missed, entry, Registers.code, registers, ha]
  · simp [hi]

theorem foldl_setSingleRegionAccess (rs : List (Fin 8)) (cp : Armcp15) :
    rs.foldl (fun cp num => cp.setSingleRegionAccess num (precalc (cp.protectBaseSize num))) cp =
      { cp with
        region := fun a i =>
          if i ∈ rs ∧ ¬ Missed cp.registers a i then entry cp.registers a i
          else cp.region a i } := by
  induction rs generalizing cp with
  | nil => simp
  | cons num rs ih =>
    rw [List.foldl_cons, setSingleRegionAccess_eq, ih]
    congr 1
    funext a i
    change (if i ∈ rs ∧ ¬ Missed cp.registers a i then entry cp.registers a i else
      if i = num ∧ ¬ Missed cp.registers a i then entry cp.registers a i else cp.region a i) = _
    simp only [List.mem_cons]
    split_ifs <;> first | rfl | tauto

/-- `maskPrecalc` makes the entries follow the registers, but for those of a missed code, which
it leaves as they were. -/
theorem maskPrecalc_eq (cp : Armcp15) :
    cp.maskPrecalc = { cp with
      region := fun a i =>
        if Missed cp.registers a i then cp.region a i else entry cp.registers a i } := by
  rw [maskPrecalc, foldl_setSingleRegionAccess]
  congr 1
  funext a i
  simp only [List.mem_finRange, true_and, ite_not]

end Armcp15

/-! ### Runs of register writes -/

namespace Mcr

/-- An `MCR` that the coprocessor takes to one of the protection registers. -/
def IsProtect (m : Mcr) : Prop :=
  m.mode ≠ Mode.usr.code ∧ m.opcode1 = 0 ∧
    (m.CRn = 5 ∧ m.CRm = 0 ∧ (m.opcode2 = 2 ∨ m.opcode2 = 3) ∨
      m.CRn = 6 ∧ m.opcode2 = 0 ∧ m.CRm < 8)

end Mcr

namespace Armcp15

/-- The protection registers take new values and the entries are recomputed. -/
def write (cp : Armcp15) (r : Registers) : Armcp15 :=
  { cp with
    DaccessPerm := r.DaccessPerm
    IaccessPerm := r.IaccessPerm
    protectBaseSize := r.protectBaseSize
    region := fun a i => if Missed r a i then cp.region a i else entry r a i }

/-- The entries follow the registers, but for those of a missed code. -/
def Coherent (cp : Armcp15) : Prop :=
  ∀ a i, ¬ Missed cp.registers a i → cp.region a i = entry cp.registers a i

theorem write_coherent (cp : Armcp15) (r : Registers) : (cp.write r).Coherent := by
  intro a i h
  exact if_neg h

/-- Between writes with the same `IaccessPerm` only the last one counts. -/
theorem write_write (cp : Armcp15) {q r : Registers} (h : q.IaccessPerm = r.IaccessPerm) :
    (cp.write q).write r = cp.write r := by
  have hmissed : ∀ a i, Missed r a i → Missed q a i := by
    rintro a i ⟨ha, hcode⟩
    refine ⟨ha, ?_⟩
    rw [Registers.code, if_pos ha] at hcode ⊢
    rwa [h]
  rw [write, write, write]
  congr 1
  funext a i
  by_cases hr : Missed r a i
  · rw [if_pos hr, if_pos hr]
    exact if_pos (hmissed a i hr)
  · rw [if_neg hr, if_neg hr]

end Armcp15

/-- The processor in a mode other than user mode. -/
theorem moveARM2CP_data (cp : Armcp15) {mode : BitVec 5} (h : mode ≠ Mode.usr.code) (val : Word) :
    moveARM2CP cp ⟨mode, val, 5, 0, 0, 2⟩ =
      cp.write { cp.registers with DaccessPerm := val } := by
  rw [moveARM2CP, if_neg h]
  exact Armcp15.maskPrecalc_eq _

theorem moveARM2CP_instr (cp : Armcp15) {mode : BitVec 5} (h : mode ≠ Mode.usr.code) (val : Word) :
    moveARM2CP cp ⟨mode, val, 5, 0, 0, 3⟩ =
      cp.write { cp.registers with IaccessPerm := val } := by
  rw [moveARM2CP, if_neg h]
  exact Armcp15.maskPrecalc_eq _

theorem moveARM2CP_base (cp : Armcp15) {mode : BitVec 5} (h : mode ≠ Mode.usr.code) (val : Word)
    (n : Fin 8) :
    moveARM2CP cp ⟨mode, val, 6, n, 0, 0⟩ =
      cp.write { cp.registers with
        protectBaseSize := Function.update cp.protectBaseSize n val } := by
  rw [moveARM2CP, if_neg h]
  simp only [and_self, if_true, dif_pos n.isLt]
  exact Armcp15.maskPrecalc_eq _

theorem moveARM2CP_of_isProtect (cp : Armcp15) {m : Mcr} (h : m.IsProtect) :
    ∃ r, moveARM2CP cp m = cp.write r := by
  obtain ⟨mode, val, CRn, CRm, opcode1, opcode2⟩ := m
  obtain ⟨hmode, hop, h⟩ := h
  cases hop
  rcases h with ⟨hn, hm, h2 | h3⟩ | ⟨hn, hop2, hm⟩
  · cases hn
    cases hm
    cases h2
    exact ⟨_, moveARM2CP_data cp hmode val⟩
  · cases hn
    cases hm
    cases h3
    exact ⟨_, moveARM2CP_instr cp hmode val⟩
  · cases hn
    cases hop2
    exact ⟨_, moveARM2CP_base cp hmode val ⟨CRm, hm⟩⟩

theorem moveARM2CP_of_not_isProtect (cp : Armcp15) {m : Mcr} (h : ¬ m.IsProtect) :
    (moveARM2CP cp m).registers = cp.registers ∧ (moveARM2CP cp m).region = cp.region := by
  by_cases huser : m.mode = Mode.usr.code
  · rw [moveARM2CP, if_pos huser]
    exact ⟨rfl, rfl⟩
  rw [moveARM2CP, if_neg huser]
  split
  case h_4 hn =>
    split
    · rename_i hop
      split
      · exact absurd ⟨huser, hop.1, .inl ⟨hn, hop.2, .inl ‹_›⟩⟩ h
      · exact absurd ⟨huser, hop.1, .inl ⟨hn, hop.2, .inr ‹_›⟩⟩ h
      · exact ⟨rfl, rfl⟩
    · exact ⟨rfl, rfl⟩
  case h_5 hn =>
    split
    · rename_i hop
      split
      · exact absurd ⟨huser, hop.1, .inr ⟨hn, hop.2, ‹_›⟩⟩ h
      · exact ⟨rfl, rfl⟩
    · exact ⟨rfl, rfl⟩
  -- the other registers are no protection registers
  all_goals
    try split
    all_goals
      try split
      all_goals exact ⟨rfl, rfl⟩

open Armcp15

theorem coherent_of_not_isProtect {cp : Armcp15} (hcp : cp.Coherent) {m : Mcr} (h : ¬ m.IsProtect) :
    (moveARM2CP cp m).Coherent := by
  obtain ⟨hreg, hregion⟩ := moveARM2CP_of_not_isProtect cp h
  intro a i hmissed
  rw [hreg] at hmissed ⊢
  rw [hregion]
  exact hcp a i hmissed

/-- After one write of a protection register the entries follow the registers in every state
of the run. -/
theorem run_coherent {cp : Armcp15} {ms : List Mcr} (h : cp.Coherent ∨ ∃ m ∈ ms, m.IsProtect) :
    (run moveARM2CP cp ms).Coherent := by
  induction ms generalizing cp with
  | nil =>
    rcases h with h | ⟨m, hm, -⟩
    · exact h
    · cases hm
  | cons m ms ih =>
    rw [run_cons]
    by_cases hm : m.IsProtect
    · obtain ⟨r, hr⟩ := moveARM2CP_of_isProtect cp hm
      rw [hr]
      exact ih (.inl (write_coherent cp r))
    · rcases h with h | ⟨q, hq, hprotect⟩
      · exact ih (.inl (coherent_of_not_isProtect h hm))
      · rcases List.mem_cons.mp hq with rfl | hq
        · exact absurd hprotect hm
        · exact ih (.inr ⟨q, hq, hprotect⟩)

/-! ### The check -/

theorem entry_iff (r : Registers) (address : Word) (a : Access) (i : Fin 8) :
    address &&& (entry r a i).mask = (entry r a i).set ↔ r.Grants address a i := by
  rw [entry, Registers.Grants]
  split_ifs with h
  · rw [precalc_iff, and_iff_left h]
  · exact iff_of_false (not_deny address) fun hgrant => h hgrant.2

theorem isAccessAllowed_iff {cp : Armcp15} (henabled : cp.ctrl.getLsbD 0 = true) (address : Word)
    (a : Access) :
    cp.isAccessAllowed address a = true ↔
      ∃ i, address &&& (cp.region a i).mask = (cp.region a i).set := by
  rw [isAccessAllowed, henabled, Bool.not_true, if_neg Bool.false_ne_true, List.any_eq_true]
  simp only [List.mem_finRange, true_and, beq_iff_eq]

/-- The cases in which the check has the entries it needs: the access is to data, or no region
has the code 5 in `IaccessPerm`, or a region with another code grants the access. -/
def Decided (r : Registers) (address : Word) (a : Access) : Prop :=
  (∀ i, ¬ Missed r a i) ∨ ∃ i, ¬ Missed r a i ∧ r.Grants address a i

theorem isAccessAllowed_of_coherent {cp : Armcp15} (hcp : cp.Coherent)
    (henabled : cp.ctrl.getLsbD 0 = true)
    {address : Word} {a : Access} (h : Decided cp.registers address a) :
    cp.isAccessAllowed address a = true ↔ cp.registers.Allows address a := by
  rw [isAccessAllowed_iff henabled]
  rcases h with h | ⟨i, hi, hgrant⟩
  · apply exists_congr
    intro i
    rw [hcp a i (h i), entry_iff]
  · refine iff_of_true ⟨i, ?_⟩ ⟨i, hgrant⟩
    rw [hcp a i hi, entry_iff]
    exact hgrant

/-! ### Runs that leave a missed entry behind -/

section Stale

variable (r : Registers) (j : Fin 8) (v : Word)

/-- The region registers, one after the other. -/
def baseWrites (rs : List (Fin 8)) : List Mcr :=
  rs.map fun n => ⟨Mode.sys.code, r.protectBaseSize n, 6, n, 0, 0⟩

/-- The region `j` is set to `v` under the permissions of the reset, the protection is turned
on, and then the registers take the values of `r`, `IaccessPerm` first. -/
def staleRun : List Mcr :=
  ⟨Mode.sys.code, v, 6, j, 0, 0⟩ :: ⟨Mode.sys.code, 1, 1, 0, 0, 0⟩ ::
    ⟨Mode.sys.code, r.IaccessPerm, 5, 0, 0, 3⟩ :: ⟨Mode.sys.code, r.DaccessPerm, 5, 0, 0, 2⟩ ::
      baseWrites r (List.finRange 8)

/-- The registers when the permissions are still those of the reset. -/
def staleRegisters : Registers :=
  ⟨init.DaccessPerm, init.IaccessPerm, Function.update init.protectBaseSize j v⟩

theorem run_baseWrites (cp : Armcp15) (q : Registers) (rs : List (Fin 8)) :
    run moveARM2CP (cp.write q) (baseWrites r rs) =
      cp.write { q with
        protectBaseSize := fun i => if i ∈ rs then r.protectBaseSize i else q.protectBaseSize i } := by
  induction rs generalizing q with
  | nil => simp [baseWrites]
  | cons n rs ih =>
    rw [baseWrites, List.map_cons, run_cons, moveARM2CP_base _ (by decide), write_write,
      ← baseWrites, ih]
    · congr 2
      funext i
      by_cases hi : i = n
      · subst hi
        simp [Armcp15.write]
      · simp [hi, Armcp15.write]
    · rfl

/-- The protection is turned on. -/
def enable (cp : Armcp15) : Armcp15 := { cp with ctrl := 0x00000079 }

theorem moveARM2CP_enable (cp : Armcp15) :
    moveARM2CP cp ⟨Mode.sys.code, 1, 1, 0, 0, 0⟩ = enable cp := by
  rw [moveARM2CP, if_neg (by decide)]
  rfl

theorem enable_ctrl (cp : Armcp15) (q : Registers) : ((enable cp).write q).ctrl.getLsbD 0 = true := by
  change (0x00000079 : Word).getLsbD 0 = true
  decide

theorem run_staleRun :
    run moveARM2CP init (staleRun r j v) = (enable (init.write (staleRegisters j v))).write r := by
  have hbase : moveARM2CP init ⟨Mode.sys.code, v, 6, j, 0, 0⟩ = init.write (staleRegisters j v) :=
    moveARM2CP_base init (by decide) v j
  rw [staleRun, run_cons, run_cons, run_cons, run_cons, hbase, moveARM2CP_enable,
    moveARM2CP_instr _ (by decide), moveARM2CP_data _ (by decide), write_write, run_baseWrites]
  · congr 1
    apply Registers.ext
    · rfl
    · rfl
    · funext i
      exact if_pos (List.mem_finRange i)
  · rfl

theorem staleRun_isProtect : ∃ m ∈ staleRun r j v, m.IsProtect :=
  ⟨_, List.mem_cons_self, show Mode.sys.code ≠ Mode.usr.code by decide, rfl,
    .inr ⟨rfl, rfl, j.isLt⟩⟩

/-- What the run leaves for a missed code: the entry from under the permissions of the reset,
which let every mode execute. -/
theorem stale_region {a : Access} {i : Fin 8} (h : Missed r a i) :
    ((enable (init.write (staleRegisters j v))).write r).region a i =
      precalc (Function.update init.protectBaseSize j v i) := by
  have hcode : ∀ i, accessType init.IaccessPerm i = 2 := by decide
  have hgrant : a.isExecute = true → 2 ∈ a.grantedBy := by cases a <;> decide
  have hnew : (staleRegisters j v).code a i = 2 := by
    rw [Registers.code, if_pos h.1]
    exact hcode i
  change (if Missed r a i then (if Missed (staleRegisters j v) a i then _ else
    entry (staleRegisters j v) a i) else _) = _
  have hfresh : ¬ Missed (staleRegisters j v) a i := by
    rintro ⟨-, h5⟩
    rw [hnew] at h5
    cases h5
  rw [if_pos h, if_neg hfresh, entry, hnew, if_pos (hgrant h.1)]
  rfl

end Stale

/-- With a region of 4 GB before, the missed region lets everything through; with none it lets
nothing through. One of the two is wrong unless the case is decided. -/
theorem decided_of_forall {r : Registers} {address : Word} {a : Access}
    (h : ∀ j v, (run moveARM2CP init (staleRun r j v)).isAccessAllowed address a = true ↔
      r.Allows address a) : Decided r address a := by
  have henabled : ∀ j v, (run moveARM2CP init (staleRun r j v)).ctrl.getLsbD 0 = true := by
    intro j v
    rw [run_staleRun]
    exact enable_ctrl _ r
  by_cases hmissed : ∀ i, ¬ Missed r a i
  · exact .inl hmissed
  · right
    rw [not_forall] at hmissed
    obtain ⟨j, hj⟩ := hmissed
    rw [not_not] at hj
    -- the stale entry of 4 GB lets the access through, so some region must grant it
    have hallows : r.Allows address a := by
      rw [← h j 0x3F, isAccessAllowed_iff (henabled j 0x3F)]
      refine ⟨j, ?_⟩
      rw [run_staleRun, stale_region r j 0x3F hj, Function.update_self]
      exact BitVec.and_zero
    -- without a stale entry only a region with a current one can let it through
    rw [← h j 0, isAccessAllowed_iff (henabled j 0)] at hallows
    obtain ⟨i, hi⟩ := hallows
    have hcurrent : ¬ Missed r a i := by
      intro hm
      have hzero : Function.update init.protectBaseSize j 0 i = 0 := by
        rw [Function.update_apply]
        split <;> rfl
      rw [run_staleRun, stale_region r j 0 hm, hzero] at hi
      exact not_deny address hi
    refine ⟨i, hcurrent, ?_⟩
    have hcoherent : (run moveARM2CP init (staleRun r j 0)).Coherent :=
      run_coherent (.inr (staleRun_isProtect r j 0))
    have hregisters : (run moveARM2CP init (staleRun r j 0)).registers = r := by
      rw [run_staleRun]
      rfl
    have hentry := hcoherent a i
    rw [hregisters] at hentry
    rwa [hentry hcurrent, entry_iff] at hi

/-- After every run of coprocessor writes that sets a protection register, the check follows the
current registers, for given values of them exactly in the decided cases. -/
theorem isAccessAllowed_iff_decided (r : Registers) (address : Word) (a : Access) :
    (∀ ms : List Mcr, (∃ m ∈ ms, m.IsProtect) → (run moveARM2CP init ms).registers = r →
      (run moveARM2CP init ms).ctrl.getLsbD 0 = true →
        ((run moveARM2CP init ms).isAccessAllowed address a = true ↔ r.Allows address a)) ↔
      Decided r address a := by
  constructor
  · intro h
    apply decided_of_forall
    intro j v
    refine h _ (staleRun_isProtect r j v) ?_ ?_
    · rw [run_staleRun]
      rfl
    · rw [run_staleRun]
      exact enable_ctrl _ r
  · rintro h ms hms rfl henabled
    exact isAccessAllowed_of_coherent (run_coherent (.inr hms)) henabled h

/-- A region of 4 GB that every mode may execute, turned over to the privileged modes. -/
def privilegedRegion : List Mcr :=
  [⟨Mode.sys.code, 0x3F, 6, 0, 0, 0⟩, ⟨Mode.sys.code, 1, 1, 0, 0, 0⟩,
    ⟨Mode.sys.code, 0x22222225, 5, 0, 0, 3⟩]

/-- User mode still executes in the region. -/
theorem privilegedRegion_executes_user :
    ¬ ∀ (ms : List Mcr) (address : Word) (a : Access), (∃ m ∈ ms, m.IsProtect) →
      (run moveARM2CP init ms).ctrl.getLsbD 0 = true →
        ((run moveARM2CP init ms).isAccessAllowed address a = true ↔
          (run moveARM2CP init ms).registers.Allows address a) := by
  intro h
  have hprotect : ∃ m ∈ privilegedRegion, m.IsProtect :=
    ⟨_, List.mem_cons_self, show Mode.sys.code ≠ Mode.usr.code by decide, rfl,
      .inr ⟨rfl, rfl, by decide⟩⟩
  have hrun : run moveARM2CP init privilegedRegion = (enable (init.write (staleRegisters 0 0x3F))).write
      { staleRegisters 0 0x3F with IaccessPerm := 0x22222225 } := by
    rw [privilegedRegion, run_cons, run_cons, run_cons, run_nil, moveARM2CP_enable,
      moveARM2CP_instr _ (by decide)]
    exact congrArg (fun cp => (enable cp).write _) (moveARM2CP_base init (by decide) 0x3F 0)
  have henabled := enable_ctrl (init.write (staleRegisters 0 0x3F))
    { staleRegisters 0 0x3F with IaccessPerm := 0x22222225 }
  have hfive : Missed { staleRegisters 0 0x3F with IaccessPerm := 0x22222225 } .EXECUSR 0 :=
    ⟨rfl, by decide⟩
  have hiff := h privilegedRegion 0 .EXECUSR hprotect
  rw [hrun] at hiff
  have hallowed := (hiff henabled).mp ((isAccessAllowed_iff henabled _ _).mpr ⟨0, by
    rw [stale_region _ _ _ hfive, Function.update_self]
    exact BitVec.and_zero⟩)
  obtain ⟨i, hcontains, hcode⟩ := hallowed
  by_cases hi : i = 0
  · -- the code 5 grants user mode nothing
    subst hi
    revert hcode
    decide
  · -- the other regions are disabled
    have hbase : (staleRegisters 0 0x3F).protectBaseSize i = 0 := Function.update_of_ne hi _ _
    have hdisabled : ((staleRegisters 0 0x3F).protectBaseSize i).getLsbD 0 = true := hcontains.1
    rw [hbase] at hdisabled
    exact absurd hdisabled (by decide)

end Desmume.Cp15
