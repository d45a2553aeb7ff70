import Desmume.Bios.Decompression

/-! The filters that add up differences. The length is counted down behind the first unit, so that
the size zero wraps around. -/

namespace Desmume.Bios
open Library

section Sums

variable {w : ℕ}

/-- The sums of differences, on top of a unit. -/
def sumsFrom (data : BitVec w) : List (BitVec w) → List (BitVec w)
  | [] => []
  | diff :: diffs => (data + diff) :: sumsFrom (data + diff) diffs

def runningSums (diffs : List (BitVec w)) : List (BitVec w) := sumsFrom 0 diffs

@[simp] theorem length_sumsFrom (data : BitVec w) (diffs : List (BitVec w)) :
    (sumsFrom data diffs).length = diffs.length := by
  induction diffs generalizing data with
  | nil => rfl
  | cons diff diffs ih => rw [sumsFrom, List.length_cons, ih, List.length_cons]

end Sums

variable {μ : Type} {bus : Bus μ} {p : Proc} {holds : μ → Memory → Prop} {region : BitVec 32 → Prop}
  {cpu : Proc → Armcpu} {m : Memory}

section Loop

variable {w n : ℕ} {read : BitVec 32 → Call μ (BitVec w)} {write : BitVec 32 → BitVec w → Call μ Unit}

/-- Accesses to units of `n` bytes, at addresses that are multiples of it. -/
structure UnitAccess (holds : μ → Memory → Prop) (region : BitVec 32 → Prop) (cpu : Proc → Armcpu)
    (n : ℕ) (read : BitVec 32 → Call μ (BitVec w)) (write : BitVec 32 → BitVec w → Call μ Unit) :
    Prop where
  read : ∀ {a m x}, n ∣ a.toNat → HoldsSpan region m a (leBytes n x.toNat) →
    Leads (Looks holds) (read a) (cpu, m) x (cpu, m)
  write : ∀ {a m x}, n ∣ a.toNat → SpanIn region a n →
    Leads (Looks holds) (write a x) (cpu, m) () (cpu, writeSpan m a (leBytes n x.toNat))

theorem unitAccess08 (ram : Ram bus p holds region) :
    UnitAccess holds region cpu 1 (mmuRead08 bus p) (mmuWrite08 bus p) where
  read {a m x} _ h := by
    rw [leBytes, leBytes, BitVec.ofNat_toNat, BitVec.setWidth_eq] at h
    exact ram.leads_read08 h
  write {a m x} _ h := by
    rw [leBytes, leBytes, BitVec.ofNat_toNat, BitVec.setWidth_eq]
    exact ram.leads_write08 h x

theorem unitAccess16 (ram : Ram bus p holds region) :
    UnitAccess holds region cpu 2 (mmuRead16 bus p) (mmuWrite16 bus p) where
  read {a m x} ha h := by
    have hread : Leads (Looks holds) (mmuRead16 bus p a) (cpu, m) _ (cpu, m) :=
      ram.leads_read16 ha h (length_leBytes ..)
    rwa [ofLeBytes_leBytes_of_lt (n := 2) x.isLt, BitVec.ofNat_toNat, BitVec.setWidth_eq] at hread
  write ha h := ram.leads_write16 ha h _

/-- No unit is written over one that is read later. -/
def ReadFirst (n : ℕ) (source dest : BitVec 32) (len : ℕ) : Prop :=
  ∀ i < len, ∀ i' < len, i / n < i' / n → behind dest i ≠ behind source i'

theorem ReadFirst.behind {source dest : BitVec 32} {len : ℕ} (hn : 0 < n)
    (h : ReadFirst n source dest (n + len)) :
    ReadFirst n (behind source n) (behind dest n) len := by
  intro i hi i' hi' hlt
  rw [behind_behind, behind_behind]
  refine h (n + i) (Nat.add_lt_add_left hi n) (n + i') (Nat.add_lt_add_left hi' n) ?_
  rw [Nat.add_div_left i hn, Nat.add_div_left i' hn]
  exact Nat.succ_lt_succ hlt

/-- What is still to be read stays. -/
theorem ReadFirst.stays {source dest : BitVec 32} {bs rest : List (BitVec 8)}
    (h : ReadFirst n source dest (n + rest.length)) (hbs : bs.length = n)
    (hrest : HoldsSpan region m (Library.behind source n) rest) :
    HoldsSpan region (writeSpan m dest bs) (Library.behind source n) rest := by
  intro i hi
  obtain ⟨hregion, hbyte⟩ := hrest i hi
  refine ⟨hregion, ?_⟩
  rw [writeSpan_of_forall_ne, hbyte]
  intro j hj heq
  rw [hbs] at hj
  rw [behind_behind] at heq
  refine h j (by omega) (n + i) (by omega) ?_ heq.symm
  rw [Nat.div_eq_of_lt hj, Nat.add_div_left i (by omega)]
  exact Nat.succ_pos _

/-- The loop, by induction on the differences that are left. -/
theorem leads_sumUnits (access : UnitAccess holds region cpu n read write) (hn : 0 < n)
    (hdvd : n ∣ 2 ^ 32) {diffs : List (BitVec w)} {source dest : BitVec 32} (data : BitVec w)
    (hsource : n ∣ source.toNat) (hdest : n ∣ dest.toNat)
    (h : HoldsSpan region m source (unitBytes n diffs))
    (hroom : SpanIn region dest (n * diffs.length))
    (hfirst : ReadFirst n source dest (n * diffs.length)) (hspace : n * diffs.length ≤ 2 ^ 32) :
    Leads (Looks holds) (sumUnits read write (BitVec.ofNat 32 n) diffs.length data source dest)
      (cpu, m) () (cpu, writeSpan m dest (unitBytes n (sumsFrom data diffs))) := by
  induction diffs generalizing source dest data m with
  | nil => exact leads_pure _ _
  | cons diff diffs ih =>
    obtain ⟨hunit, hrest⟩ := HoldsSpan.append_iff.1 h
    rw [length_leBytes] at hrest
    have hlength : n * (diff :: diffs).length = n + n * diffs.length := by
      rw [List.length_cons, Nat.mul_succ, Nat.add_comm]
    rw [hlength] at hroom hfirst hspace
    have hroom' : SpanIn region (Library.behind dest n) (n * diffs.length) := by
      intro i hi
      rw [behind_behind]
      exact hroom _ (Nat.add_lt_add_left hi n)
    have hstays : HoldsSpan region (writeSpan m dest (leBytes n (data + diff).toNat))
        (Library.behind source n) (unitBytes n diffs) := by
      refine ReadFirst.stays ?_ (length_leBytes ..) hrest
      rwa [length_unitBytes]
    have hloop := ih (data + diff) (dvd_behind hdvd hsource (Nat.dvd_refl n))
      (dvd_behind hdvd hdest (Nat.dvd_refl n)) hstays hroom' (hfirst.behind hn) (by omega)
    have hjoin := writeSpan_writeSpan m dest (leBytes n (data + diff).toNat)
      (unitBytes n (sumsFrom (data + diff) diffs)) (by
        rw [List.length_append, length_leBytes, length_unitBytes, length_sumsFrom]
        exact hspace)
    rw [length_leBytes] at hjoin
    rw [hjoin] at hloop
    refine (access.read hsource hunit).bind ((access.write hdest fun i hi => ?_).bind hloop)
    exact hroom i (Nat.lt_add_right _ hi)

/-- The first unit is the first sum on top of nothing. -/
theorem diffUnFilter_eq (size : BitVec 32) : diffUnFilter bus p read write size = do
    let source ← getR p 0
    let dest ← getR p 1
    let header ← mmuRead32 bus p source
    sumUnits read write size (((header >>> 8 - size) / size).toNat + 1) 0 (source + 4) dest
    return 1 := by
  simp only [diffUnFilter, sumUnits, BitVec.ofNat_eq_ofNat, BitVec.zero_add, bind_assoc]

/-- The units of a size, whole ones. -/
theorem count_units {header : BitVec 32} (hn : 0 < n) (hle : n ≤ headerSize header) :
    ((header >>> 8 - BitVec.ofNat 32 n) / BitVec.ofNat 32 n).toNat + 1 = headerSize header / n := by
  have hlt := headerSize_lt header
  have hlow : (BitVec.ofNat 32 n).toNat = n := Nat.mod_eq_of_lt (by omega)
  have hsub : (header >>> 8 - BitVec.ofNat 32 n).toNat = headerSize header - n := by
    rw [BitVec.toNat_sub_of_le, hlow, headerSize]
    rwa [BitVec.le_def, hlow]
  rw [BitVec.toNat_udiv, hsub, hlow, ← Nat.add_div_right _ hn, Nat.sub_add_cancel hle]

/-- The filter, when the size is a positive number of whole units. -/
theorem leads_diffUnFilter (ram : Ram bus p holds region)
    (access : UnitAccess holds region cpu n read write) (hn : 0 < n) (hdvd : n ∣ 4)
    {header : BitVec 32} {diffs : List (BitVec w)} (hsource : 4 ∣ ((cpu p).R 0).toNat)
    (hdest : n ∣ ((cpu p).R 1).toNat) (hsize : headerSize header = n * diffs.length)
    (hpos : headerSize header ≠ 0)
    (h : HoldsSpan region m ((cpu p).R 0) (leBytes 4 header.toNat ++ unitBytes n diffs))
    (hroom : SpanIn region ((cpu p).R 1) (headerSize header))
    (hfirst : ReadFirst n (behind ((cpu p).R 0) 4) ((cpu p).R 1) (n * diffs.length)) :
    Leads (Looks holds) (diffUnFilter bus p read write (BitVec.ofNat 32 n)) (cpu, m) 1
      (cpu, writeSpan m ((cpu p).R 1) (unitBytes n (runningSums diffs))) := by
  obtain ⟨hheader, hdiffs⟩ := HoldsSpan.append_iff.1 h
  rw [length_leBytes] at hdiffs
  have hdvd32 : n ∣ 2 ^ 32 := Nat.dvd_trans hdvd (by decide)
  have hlt : n * diffs.length < 2 ^ 32 := by
    rw [← hsize]
    exact (header >>> 8).isLt
  have hle : n ≤ headerSize header := by
    rw [hsize]
    refine Nat.le_mul_of_pos_right n (Nat.pos_of_ne_zero fun hzero => hpos ?_)
    rw [hsize, hzero, Nat.mul_zero]
  have hcount : ((header >>> 8 - BitVec.ofNat 32 n) / BitVec.ofNat 32 n).toNat + 1 =
      diffs.length := by
    rw [count_units hn hle, hsize, Nat.mul_div_cancel_left _ hn]
  rw [hsize] at hroom
  rw [diffUnFilter_eq]
  refine (leads_getR 0).bind ((leads_getR 1).bind ((ram.leads_readWord hsource hheader).bind ?_))
  rw [hcount]
  exact (leads_sumUnits access hn hdvd32 0
    (dvd_behind hdvd32 (Nat.dvd_trans hdvd hsource) hdvd) hdest hdiffs hroom hfirst hlt.le).bind
    (leads_pure _ _)

end Loop

section Overrun

variable {n : ℕ} {read : BitVec 32 → Call Memory (BitVec (8 * n))}
  {write : BitVec 32 → BitVec (8 * n) → Call Memory Unit}

/-- Any cells are a unit. -/
theorem exists_unit (n : ℕ) (m : Memory) (a : BitVec 32) :
    ∃ x : BitVec (8 * n), HoldsSpan (fun _ => True) m a (leBytes n x.toNat) := by
  have hlength : ((List.range n).map fun i => m (behind a i)).length = n := by
    rw [List.length_map, List.length_range]
  have hlt := ofLeBytes_lt ((List.range n).map fun i => m (behind a i))
  have hcells := leBytes_ofLeBytes ((List.range n).map fun i => m (behind a i))
  rw [hlength] at hlt hcells
  refine ⟨BitVec.ofNat _ (ofLeBytes ((List.range n).map fun i => m (behind a i))), ?_⟩
  rw [BitVec.toNat_ofNat, Nat.pow_mul, Nat.mod_eq_of_lt hlt, hcells]
  intro i hi
  rw [List.getElem_map, List.getElem_range]
  exact ⟨trivial, rfl⟩

/-- What is written behind a unit, and the unit. -/
theorem eq_of_units {m m' : Memory} {dest : BitVec 32} {k : ℕ} {bs : List (BitVec 8)}
    (hbs : bs.length = n)
    (h : ∀ b, (∀ i < n * k, b ≠ behind (behind dest n) i) → m' b = writeSpan m dest bs b)
    {b : BitVec 32} (hb : ∀ i < n * (k + 1), b ≠ behind dest i) : m' b = m b := by
  rw [Nat.mul_succ, Nat.add_comm] at hb
  rw [h, writeSpan_of_forall_ne]
  · intro i hi
    rw [hbs] at hi
    exact hb i (Nat.lt_add_right _ hi)
  · intro i hi
    rw [behind_behind]
    exact hb _ (Nat.add_lt_add_left hi n)

/-- Whatever the number of rounds, only the units of these rounds are written. -/
theorem leads_sumUnits_flat
    (access : UnitAccess Eq (fun _ => True) cpu n read write) (hdvd : n ∣ 2 ^ 32) (k : ℕ)
    (data : BitVec (8 * n)) {source dest : BitVec 32} (m : Memory) (hsource : n ∣ source.toNat)
    (hdest : n ∣ dest.toNat) : ∃ m',
    Leads (Looks Eq) (sumUnits read write (BitVec.ofNat 32 n) k data source dest) (cpu, m) ()
      (cpu, m') ∧ ∀ b, (∀ i < n * k, b ≠ behind dest i) → m' b = m b := by
  induction k generalizing data source dest m with
  | zero => exact ⟨m, leads_pure _ _, fun _ _ => rfl⟩
  | succ k ih =>
    obtain ⟨diff, hdiff⟩ := exists_unit n m source
    obtain ⟨m', hloop, hframe⟩ := ih (data + diff) (writeSpan m dest (leBytes n (data + diff).toNat))
      (dvd_behind hdvd hsource (Nat.dvd_refl n)) (dvd_behind hdvd hdest (Nat.dvd_refl n))
    exact ⟨m', (access.read hsource hdiff).bind
      ((access.write hdest fun _ _ => trivial).bind hloop),
      fun b hb => eq_of_units (length_leBytes ..) hframe hb⟩

/-- The first unit stays, also when the rounds go all around the memory. -/
theorem leads_sumUnits_first
    (access : UnitAccess Eq (fun _ => True) cpu n read write) (hdvd : n ∣ 2 ^ 32) {k : ℕ}
    (hspace : n * (k + 1) ≤ 2 ^ 32) {diff : BitVec (8 * n)} (source dest : BitVec 32) (m : Memory)
    (hsource : n ∣ source.toNat) (hdest : n ∣ dest.toNat)
    (h : HoldsSpan (fun _ => True) m source (leBytes n diff.toNat)) : ∃ m',
    Leads (Looks Eq) (sumUnits read write (BitVec.ofNat 32 n) (k + 1) 0 source dest) (cpu, m) ()
      (cpu, m') ∧ HoldsSpan (fun _ => True) m' dest (leBytes n diff.toNat) ∧
      ∀ b, (∀ i < n * (k + 1), b ≠ behind dest i) → m' b = m b := by
  rw [Nat.mul_succ, Nat.add_comm] at hspace
  obtain ⟨m', hloop, hframe⟩ := leads_sumUnits_flat access hdvd k (0 + diff)
    (writeSpan m dest (leBytes n (0 + diff).toNat)) (dvd_behind hdvd hsource (Nat.dvd_refl n))
    (dvd_behind hdvd hdest (Nat.dvd_refl n))
  have hzero : 0 + diff = diff := by
    rw [BitVec.ofNat_eq_ofNat, BitVec.zero_add]
  refine ⟨m', (access.read hsource h).bind ((access.write hdest fun _ _ => trivial).bind hloop),
    fun i hi => ⟨trivial, ?_⟩, fun b hb => eq_of_units (length_leBytes ..) hframe hb⟩
  rw [length_leBytes] at hi
  rw [hframe, hzero, writeSpan_behind]
  · omega
  · intro j hj heq
    rw [behind_behind] at heq
    have := behind_inj dest (by omega) (by omega) heq
    omega

end Overrun

/-- A header and the differences that it announces lie at `source`, and there is room at `dest` for
what it announces. -/
structure DiffsAt (region : BitVec 32 → Prop) (m : Memory) (source dest header : BitVec 32) (n : ℕ)
    (diffs : List (BitVec (8 * n))) : Prop where
  source_dvd : 4 ∣ source.toNat
  dest_dvd : n ∣ dest.toNat
  size_le : headerSize header ≤ n * diffs.length
  lt_size : n * diffs.length < headerSize header + n
  stored : HoldsSpan region m source (leBytes 4 header.toNat ++ unitBytes n diffs)
  room : SpanIn region dest (headerSize header)
  readFirst : ReadFirst n (behind source 4) dest (n * diffs.length)

/-- Whatever the differences behind a header, the filter writes their sums in as many bytes as the header
gives. -/
def UnFilters (n : ℕ) (unFilter : {μ : Type} → Bus μ → Proc → Call μ (BitVec 32))
    (header : BitVec 32) : Prop :=
  ∀ {μ : Type} {bus : Bus μ} {p : Proc} {holds : μ → Memory → Prop} {region : BitVec 32 → Prop}
    {cpu : Proc → Armcpu} {m : Memory} {diffs : List (BitVec (8 * n))}, Ram bus p holds region →
    DiffsAt region m ((cpu p).R 0) ((cpu p).R 1) header n diffs → ∃ ret,
      Leads (Looks holds) (unFilter bus p) (cpu, m) ret
        (cpu, writeSpan m ((cpu p).R 1)
          ((unitBytes n (runningSums diffs)).take (headerSize header)))

section Ones

/-- The caller of the refutations. -/
def diffCaller : Proc → Armcpu := callerCpu [0x02000000, 0x08000000]

/-- A memory with a header and a unit of ones. -/
def onesMemory (n : ℕ) (header : BitVec 32) : Memory :=
  writeSpan (fun _ => 0) 0x02000000 (leBytes 4 header.toNat ++ List.replicate n 1)

/-- The unit of ones. -/
def ones (n : ℕ) : BitVec (8 * n) := BitVec.ofNat _ (ofLeBytes (List.replicate n 1))

theorem leBytes_ones (n : ℕ) : leBytes n (ones n).toNat = List.replicate n 1 := by
  have hlt := ofLeBytes_lt (List.replicate n 1)
  have hbytes := leBytes_ofLeBytes (List.replicate n 1)
  rw [List.length_replicate] at hlt hbytes
  rw [ones, BitVec.toNat_ofNat, Nat.pow_mul, Nat.mod_eq_of_lt hlt, hbytes]

theorem leBytes_zero (n : ℕ) : leBytes n 0 = List.replicate n 0 := by
  induction n with
  | zero => rfl
  | succ n ih => rw [leBytes, Nat.zero_div, ih, List.replicate_succ]; rfl

theorem unitBytes_replicate {w : ℕ} {n k : ℕ} {x : BitVec w} {b : BitVec 8}
    (hx : leBytes n x.toNat = List.replicate n b) :
    unitBytes n (List.replicate k x) = List.replicate (n * k) b := by
  induction k with
  | zero => rfl
  | succ k ih =>
    rw [List.replicate_succ, unitBytes, List.flatMap_cons, hx, ← unitBytes, ih, Nat.mul_succ,
      Nat.add_comm, List.replicate_add]

theorem sumsFrom_zeros {w : ℕ} (data : BitVec w) (k : ℕ) :
    sumsFrom data (List.replicate k 0) = List.replicate k data := by
  induction k with
  | zero => rfl
  | succ k ih =>
    rw [List.replicate_succ, sumsFrom, BitVec.ofNat_eq_ofNat, BitVec.add_zero, ← BitVec.ofNat_eq_ofNat,
      ih, List.replicate_succ]

theorem runningSums_ones (n k : ℕ) :
    unitBytes n (runningSums (ones n :: List.replicate k 0)) = List.replicate (n * (k + 1)) 1 := by
  rw [runningSums, sumsFrom, BitVec.ofNat_eq_ofNat, BitVec.zero_add, ← BitVec.ofNat_eq_ofNat,
    sumsFrom_zeros, ← List.replicate_succ, unitBytes_replicate (leBytes_ones n)]

theorem onesMemory_stored {n k : ℕ} (header : BitVec 32) (hspace : 4 + n * (k + 1) ≤ 2 ^ 32) :
    HoldsSpan (fun _ => True) (onesMemory n header) 0x02000000
      (leBytes 4 header.toNat ++ unitBytes n (ones n :: List.replicate k 0)) := by
  have hzero : leBytes n (0 : BitVec (8 * n)).toNat = List.replicate n 0 := by
    rw [BitVec.ofNat_eq_ofNat, BitVec.toNat_ofNat, Nat.zero_mod, leBytes_zero]
  have hunits : unitBytes n (ones n :: List.replicate k 0) =
      List.replicate n 1 ++ List.replicate (n * k) 0 := by
    rw [unitBytes, List.flatMap_cons, leBytes_ones, ← unitBytes, unitBytes_replicate hzero]
  rw [hunits, ← List.append_assoc, HoldsSpan.append_iff]
  rw [Nat.mul_succ] at hspace
  refine ⟨fun i hi => ⟨trivial, ?_⟩, fun i hi => ⟨trivial, ?_⟩⟩
  · rw [onesMemory, writeSpan_behind]
    rw [List.length_append, length_leBytes, List.length_replicate] at hi
    omega
  · rw [List.length_replicate] at hi
    rw [List.getElem_replicate, onesMemory, writeSpan_of_forall_ne]
    intro j hj heq
    rw [behind_behind] at heq
    have hsame := behind_inj _ (by
      rw [List.length_append, length_leBytes, List.length_replicate]
      omega) (by
      rw [List.length_append, length_leBytes, List.length_replicate] at hj
      omega) heq
    omega

theorem onesMemory_dest {n : ℕ} (header : BitVec 32) {i : ℕ} (hn : n ≤ 4) (hi : i < 2 ^ 24) :
    onesMemory n header (behind 0x08000000 i) = 0 := by
  rw [onesMemory, writeSpan_of_forall_ne]
  intro j hj heq
  rw [List.length_append, length_leBytes, List.length_replicate] at hj
  have hnat := congrArg BitVec.toNat heq
  rw [behind, behind, BitVec.toNat_add, BitVec.toNat_add, BitVec.toNat_ofNat, BitVec.toNat_ofNat] at hnat
  change (134217728 + _) % _ = (33554432 + _) % _ at hnat
  omega

/-- The last unit that the header announces, of the ones and nothing behind them. -/
theorem onesMemory_diffsAt {n k : ℕ} (header : BitVec 32) (hn : n ≤ 4) (hdvd : n ∣ 4)
    (hle : headerSize header ≤ n * (k + 1)) (hlt : n * k < headerSize header) :
    DiffsAt (fun _ => True) (onesMemory n header) ((diffCaller .arm9).R 0) ((diffCaller .arm9).R 1)
      header n (ones n :: List.replicate k 0) := by
  have hlength : (ones n :: List.replicate k 0).length = k + 1 := by
    rw [List.length_cons, List.length_replicate]
  have hbound : headerSize header < 2 ^ 24 := headerSize_lt header
  rw [Nat.mul_succ] at hle
  refine ⟨by decide, Nat.dvd_trans hdvd (by decide), ?_, ?_, ?_, fun _ _ => trivial, ?_⟩
  · rwa [hlength, Nat.mul_succ]
  · rw [hlength, Nat.mul_succ]
    exact Nat.add_lt_add_right hlt n
  · refine onesMemory_stored header ?_
    rw [Nat.mul_succ]
    omega
  · rw [hlength, Nat.mul_succ]
    intro i hi i' hi' _ heq
    have hnat := congrArg BitVec.toNat heq
    rw [behind_behind, behind, behind, BitVec.toNat_add, BitVec.toNat_add, BitVec.toNat_ofNat,
      BitVec.toNat_ofNat] at hnat
    change (134217728 + _) % _ = (33554432 + _) % _ at hnat
    omega

theorem onesMemory_diffsAt_nil {n : ℕ} (header : BitVec 32) (hn : n ≤ 4) (hdvd : n ∣ 4)
    (hzero : headerSize header = 0) (hpos : 0 < n) :
    DiffsAt (fun _ => True) (onesMemory n header) ((diffCaller .arm9).R 0) ((diffCaller .arm9).R 1)
      header n [] := by
  have hstored := onesMemory_stored (n := n) (k := 0) header (by omega)
  refine ⟨by decide, Nat.dvd_trans hdvd (by decide), ?_, ?_, ?_, fun _ _ => trivial, nofun⟩
  · rw [hzero]
    exact Nat.zero_le _
  · rw [hzero, Nat.zero_add]
    exact hpos
  · rw [unitBytes, List.flatMap_nil, List.append_nil]
    exact (HoldsSpan.append_iff.1 hstored).1

end Ones

section Exact

variable {n : ℕ} {read : {μ : Type} → Bus μ → Proc → BitVec 32 → Call μ (BitVec (8 * n))}
  {write : {μ : Type} → Bus μ → Proc → BitVec 32 → BitVec (8 * n) → Call μ Unit}

/-- The filter on the ones, whatever their number. -/
theorem leads_diffUnFilter_ones
    (access : UnitAccess Eq (fun _ => True) diffCaller n (read flatBus .arm9) (write flatBus .arm9))
    (hn : 0 < n) (hdvd : n ∣ 4) (header : BitVec 32) : ∃ m',
    Leads (Looks Eq) (diffUnFilter flatBus .arm9 (read flatBus .arm9) (write flatBus .arm9)
        (BitVec.ofNat 32 n)) (diffCaller, onesMemory n header) 1 (diffCaller, m') ∧
      HoldsSpan (fun _ => True) m' 0x08000000 (List.replicate n 1) ∧
      ∀ b, (∀ i < n * (((header >>> 8 - BitVec.ofNat 32 n) / BitVec.ofNat 32 n).toNat + 1),
        b ≠ behind 0x08000000 i) → m' b = onesMemory n header b := by
  have hle : n ≤ 4 := Nat.le_of_dvd (by decide) hdvd
  have hstored := onesMemory_stored (n := n) (k := 0) header (by omega)
  obtain ⟨hheader, hunit⟩ := HoldsSpan.append_iff.1 hstored
  rw [length_leBytes, List.replicate_zero, unitBytes, List.flatMap_cons, List.flatMap_nil,
    List.append_nil] at hunit
  have hdvd32 : n ∣ 2 ^ 32 := Nat.dvd_trans hdvd (by decide)
  have hspace : n * (((header >>> 8 - BitVec.ofNat 32 n) / BitVec.ofNat 32 n).toNat + 1) ≤ 2 ^ 32 := by
    obtain ⟨d, hd⟩ := hdvd32
    rw [hd]
    refine Nat.mul_le_mul_left n (Nat.succ_le_of_lt ?_)
    rw [BitVec.toNat_udiv, BitVec.toNat_ofNat, Nat.mod_eq_of_lt (show n < 2 ^ 32 by omega)]
    refine Nat.div_lt_of_lt_mul ?_
    rw [← hd]
    exact (header >>> 8 - BitVec.ofNat 32 n).isLt
  obtain ⟨m', hrun, hfirst, hframe⟩ := leads_sumUnits_first access hdvd32 hspace
    (behind 0x02000000 4) 0x08000000 (onesMemory n header)
    (Nat.dvd_trans hdvd (by decide)) (Nat.dvd_trans hdvd (by decide)) hunit
  rw [leBytes_ones] at hfirst
  refine ⟨m', ?_, hfirst, hframe⟩
  rw [diffUnFilter_eq]
  exact (leads_getR 0).bind ((leads_getR 1).bind
    (((ram_flatBus .arm9).leads_readWord (by decide) hheader).bind (hrun.bind (leads_pure _ _))))

/-- A size that is not a positive number of whole units: the filter stores a whole unit where
there is room for none, or leaves the last bytes out. -/
theorem not_unFilters
    (access : UnitAccess Eq (fun _ => True) diffCaller n (read flatBus .arm9) (write flatBus .arm9))
    (hn : 0 < n) (hdvd : n ∣ 4) {header : BitVec 32}
    (hsize : headerSize header = 0 ∨ ¬ n ∣ headerSize header) :
    ¬ UnFilters n (fun bus p => diffUnFilter bus p (read bus p) (write bus p) (BitVec.ofNat 32 n))
      header := by
  intro h
  have hle : n ≤ 4 := Nat.le_of_dvd (by decide) hdvd
  have hbound := headerSize_lt header
  obtain ⟨m', hrun, hfirst, hframe⟩ := leads_diffUnFilter_ones access hn hdvd header
  have hshort (diffs : List (BitVec (8 * n))) (hlt : headerSize header < n)
      (hdiffs : DiffsAt (fun _ => True) (onesMemory n header) ((diffCaller .arm9).R 0)
        ((diffCaller .arm9).R 1) header n diffs) : False := by
    obtain ⟨ret, hsums⟩ := h (ram_flatBus .arm9) hdiffs
    have hcell := (hfirst (n - 1) (by rw [List.length_replicate]; omega)).2
    rw [List.getElem_replicate, leads_flat_unique hrun hsums, writeSpan_of_forall_ne,
      onesMemory_dest header hle (by omega)] at hcell
    · exact absurd hcell (by decide)
    · intro i hi heq
      rw [List.length_take] at hi
      have := behind_inj _ (by omega) (by omega) heq
      omega
  rcases Nat.eq_zero_or_pos (headerSize header) with hzero | hpos
  · exact hshort [] (by omega) (onesMemory_diffsAt_nil header hle hdvd hzero hn)
  · have hpart : ¬ n ∣ headerSize header := hsize.resolve_left hpos.ne'
    have hmod := Nat.div_add_mod (headerSize header) n
    have hrem := Nat.mod_lt (headerSize header) hn
    have hrem' : headerSize header % n ≠ 0 := fun hdvd' => hpart (Nat.dvd_of_mod_eq_zero hdvd')
    have hdiffs := onesMemory_diffsAt (k := headerSize header / n) header hle hdvd
      (by rw [Nat.mul_succ]; omega) (by omega)
    rcases Nat.lt_or_ge (headerSize header) n with hlt | hge
    · exact hshort _ hlt hdiffs
    · obtain ⟨ret, hsums⟩ := h (ram_flatBus .arm9) hdiffs
      have hcount : ((header >>> 8 - BitVec.ofNat 32 n) / BitVec.ofNat 32 n).toNat + 1 =
          headerSize header / n := count_units hn hge
      have hcell := hframe (behind 0x08000000 (headerSize header - 1)) fun i hi heq => by
        rw [hcount] at hi
        have := behind_inj _ (by omega) (by omega) heq
        omega
      rw [onesMemory_dest header hle (by omega), leads_flat_unique hrun hsums, runningSums_ones,
        List.take_replicate, Nat.min_eq_left (by rw [Nat.mul_succ]; omega)] at hcell
      have hone : writeSpan (onesMemory n header) 0x08000000 (List.replicate (headerSize header) 1)
          (behind 0x08000000 (headerSize header - 1)) = 1 := by
        rw [writeSpan_behind _ _ (by rw [List.length_replicate]; omega) (by omega),
          List.getElem_replicate]
      exact absurd (hone.symm.trans hcell) (by decide)

/-- Of the sizes of whole units the filter gets all right but the size zero. -/
theorem unFilters_iff
    (access : ∀ {μ : Type} {bus : Bus μ} {p : Proc} {holds : μ → Memory → Prop}
      {region : BitVec 32 → Prop} {cpu : Proc → Armcpu}, Ram bus p holds region →
      UnitAccess holds region cpu n (read bus p) (write bus p))
    (hn : 0 < n) (hdvd : n ∣ 4) (header : BitVec 32) :
    UnFilters n (fun bus p => diffUnFilter bus p (read bus p) (write bus p) (BitVec.ofNat 32 n))
      header ↔ headerSize header ≠ 0 ∧ n ∣ headerSize header := by
  constructor
  · intro h
    by_contra hsize
    rw [not_and_or, not_not] at hsize
    exact not_unFilters (access (ram_flatBus .arm9)) hn hdvd hsize h
  · rintro ⟨hpos, hwhole⟩ μ bus p holds region cpu m diffs ram hdiffs
    have hsize : headerSize header = n * diffs.length := by
      have hge := hdiffs.size_le
      have hlt := hdiffs.lt_size
      obtain ⟨k, hk⟩ := hwhole
      rw [hk, ← Nat.mul_succ] at hlt
      rw [hk] at hge
      rw [hk, Nat.le_antisymm (Nat.le_of_mul_le_mul_left hge hn)
        (Nat.le_of_lt_succ (Nat.lt_of_mul_lt_mul_left hlt))]
    refine ⟨1, ?_⟩
    rw [List.take_of_length_le (by rw [length_unitBytes, runningSums, length_sumsFrom, hsize])]
    exact leads_diffUnFilter ram (access ram) hn hdvd hdiffs.source_dvd hdiffs.dest_dvd hsize hpos
      hdiffs.stored hdiffs.room hdiffs.readFirst

end Exact

/-- The 8 bit filter is right for every size but zero, the 16 bit filter for the positive even ones. -/
theorem diffUnFilter_iff (header : BitVec 32) :
    (UnFilters 1 diff8bitUnFilterWram header ↔ headerSize header ≠ 0) ∧
      (UnFilters 2 diff16bitUnFilter header ↔ headerSize header ≠ 0 ∧ 2 ∣ headerSize header) := by
  constructor
  · exact (unFilters_iff unitAccess08 Nat.one_pos (by decide) header).trans
      (and_iff_left (Nat.one_dvd _))
  · exact unFilters_iff unitAccess16 Nat.two_pos (by decide) header

/-- A header that gives the size zero. -/
theorem emptyHeader_not_unFilters : ¬ UnFilters 1 diff8bitUnFilterWram 0x81 := by
  intro h
  exact not_unFilters (unitAccess08 (ram_flatBus .arm9)) Nat.one_pos (by decide) (.inl (by decide)) h

end Desmume.Bios
