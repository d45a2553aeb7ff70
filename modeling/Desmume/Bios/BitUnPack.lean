import Desmume.Bios.Ram
import Desmume.Library.Chunks

/-! The call that widens the units of a source. The values fill words from the lowest bits on, and a word
is written when it is full. -/

namespace Desmume.Bios
open Library

/-- The first units of a byte, the lowest first. -/
def byteUnits (bits n : ℕ) (b : BitVec 8) : List ℕ :=
  (List.range n).map fun i => (b >>> (bits * i)).toNat % 2 ^ bits

theorem byteUnits_succ (bits n : ℕ) (b : BitVec 8) :
    byteUnits bits (n + 1) b = b.toNat % 2 ^ bits :: byteUnits bits n (b >>> bits) := by
  rw [byteUnits, List.range_succ_eq_map, List.map_cons, Nat.mul_zero, BitVec.ushiftRight_zero,
    List.map_map, byteUnits]
  refine congrArg _ (List.map_congr_left fun i _ => ?_)
  rw [Function.comp_apply, Nat.mul_succ, Nat.add_comm, BitVec.shiftRight_add]

/-- A unit with the base, which zero only gets when the flag is set. -/
def biased (base : ℕ) (addBase : Bool) (unit : ℕ) : ℕ :=
  if unit ≠ 0 ∨ addBase then unit + base else unit

/-- The values of a source. -/
def unitValues (bits base : ℕ) (addBase : Bool) (bytes : List (BitVec 8)) : List ℕ :=
  bytes.flatMap fun b => (byteUnits bits (8 / bits) b).map (biased base addBase)

/-- What is to be written: values that fit the units, not too many for the memory. -/
structure Unpacking where
  memory : Memory
  dest : BitVec 32
  dataSize : ℕ
  values : List ℕ
  dataSize_mem : dataSize ∈ [1, 2, 4, 8, 16, 32]
  fits : ∀ v ∈ values, v < 2 ^ dataSize
  length_le : values.length ≤ 2 ^ 20

namespace Unpacking

/-- The values in a word. -/
def perWord (x : Unpacking) : ℕ := 32 / x.dataSize

def output (x : Unpacking) : List (BitVec 8) := packed (2 ^ x.dataSize) x.perWord 4 x.values

/-- Where the source may be: in the region, and not where the output goes. -/
def Kept (x : Unpacking) (region : BitVec 32 → Prop) (a : BitVec 32) : Prop :=
  region a ∧ ∀ i < x.output.length, a ≠ behind x.dest i

variable (x : Unpacking)

theorem dataSize_mul_perWord : x.dataSize * x.perWord = 32 := by
  have hall : ∀ d ∈ [1, 2, 4, 8, 16, 32], d * (32 / d) = 32 := by decide
  exact hall _ x.dataSize_mem

theorem dataSize_pos : 0 < x.dataSize := by
  refine Nat.pos_of_ne_zero fun hzero => ?_
  have h := x.dataSize_mul_perWord
  rw [hzero, Nat.zero_mul] at h
  exact absurd h (by decide)

theorem one_lt_base : 1 < 2 ^ x.dataSize := Nat.one_lt_two_pow x.dataSize_pos.ne'

theorem base_pow_perWord : (2 ^ x.dataSize) ^ x.perWord = 256 ^ 4 := by
  rw [← Nat.pow_mul, x.dataSize_mul_perWord]
  decide

theorem length_pending_lt (vs : List ℕ) : (pending x.perWord vs).length < x.perWord := by
  rw [length_pending]
  refine Nat.mod_lt _ (Nat.pos_of_ne_zero fun hzero => ?_)
  have h := x.dataSize_mul_perWord
  rw [hzero, Nat.mul_zero] at h
  exact absurd h (by decide)

theorem length_output : x.output.length = 4 * (x.values.length / x.perWord) := length_packed ..

variable {x} {vs : List ℕ}

theorem length_packed_le (h : vs <+: x.values) :
    (packed (2 ^ x.dataSize) x.perWord 4 vs).length ≤ x.output.length := by
  rw [length_packed, x.length_output]
  exact Nat.mul_le_mul_left 4 (Nat.div_le_div_right h.length_le)

theorem length_output_le : x.output.length ≤ 2 ^ 32 := by
  have h := x.length_le
  have hdiv := Nat.div_le_self x.values.length x.perWord
  rw [x.length_output]
  omega

/-- The word that a value fills. -/
theorem word_lt {v : ℕ} (h : vs ++ [v] <+: x.values)
    (hk : (pending x.perWord vs).length + 1 = x.perWord) :
    Nat.ofDigits (2 ^ x.dataSize) (pending x.perWord vs ++ [v]) < 2 ^ 32 := by
  have hall : ∀ y ∈ pending x.perWord vs ++ [v], y < 2 ^ x.dataSize := by
    intro y hy
    refine x.fits y (h.subset ?_)
    rcases List.mem_append.1 hy with hy | hy
    · exact List.mem_append_left _ (List.mem_of_mem_drop hy)
    · exact List.mem_append_right _ hy
  have hlt := Nat.ofDigits_lt_base_pow_length x.one_lt_base hall
  rwa [List.length_append, List.length_singleton, hk, x.base_pow_perWord] at hlt

end Unpacking

/-- The values `vs` are out, but for those that are pending. -/
structure Packs (x : Unpacking) (vs : List ℕ) (u : Unpack) (m : Memory) : Prop where
  vs_begins : vs <+: x.values
  dest : u.dest = behind x.dest (4 * (vs.length / x.perWord))
  data : u.data = BitVec.ofNat 32 (Nat.ofDigits (2 ^ x.dataSize) (pending x.perWord vs))
  bitwritecount : u.bitwritecount = x.dataSize * (pending x.perWord vs).length
  memory : m = writeSpan x.memory x.dest (packed (2 ^ x.dataSize) x.perWord 4 vs)

section Run

variable {μ : Type} {bus : Bus μ} {p : Proc} {holds : μ → Memory → Prop} {region : BitVec 32 → Prop}
  {cpu : Proc → Armcpu} {x : Unpacking} {vs : List ℕ} {u : Unpack} {m : Memory} {bits : ℕ}
  {base : BitVec 32} {addBase : Bool} {b : BitVec 8}

theorem Packs.start (x : Unpacking) (source : BitVec 32) :
    Packs x [] ⟨source, x.dest, 0, 0⟩ x.memory := by
  refine ⟨List.nil_prefix, ?_, ?_, ?_, ?_⟩
  · rw [List.length_nil, Nat.zero_div, Nat.mul_zero, behind_zero]
  · rw [pending_nil]
    rfl
  · rw [pending_nil, List.length_nil, Nat.mul_zero]
  · rw [packed_nil, writeSpan_nil]

theorem Packs.source (h : Packs x vs u m) (source : BitVec 32) :
    Packs x vs { u with source := source } m := ⟨h.vs_begins, h.dest, h.data, h.bitwritecount, h.memory⟩

/-- The source is still there. -/
theorem Packs.kept (h : Packs x vs u m) {a : BitVec 32} {bs : List (BitVec 8)}
    (hbs : HoldsSpan (x.Kept region) x.memory a bs) : HoldsSpan region m a bs := by
  intro i hi
  obtain ⟨⟨hregion, hne⟩, hbyte⟩ := hbs i hi
  refine ⟨hregion, ?_⟩
  rw [h.memory, writeSpan_of_forall_ne, hbyte]
  intro j hj
  exact hne j (Nat.lt_of_lt_of_le hj (Unpacking.length_packed_le h.vs_begins))

/-- The value as the call computes it. -/
theorem unit_eq (hbits : bits ∈ [1, 2, 4, 8]) (b : BitVec 8) :
    ((b &&& (0xFF : BitVec 8) >>> (8 - bits)).setWidth 32 : BitVec 32) =
      BitVec.ofNat 32 (b.toNat % 2 ^ bits) := by
  have hall : ∀ s ∈ [1, 2, 4, 8], ∀ b : BitVec 8,
      (b &&& (0xFF : BitVec 8) >>> (8 - s)).toNat = b.toNat % 2 ^ s := by decide
  rw [← hall bits hbits b]
  apply BitVec.eq_of_toNat_eq
  rw [BitVec.toNat_setWidth, BitVec.toNat_ofNat]

theorem biased_eq {unit : ℕ} (hunit : unit < 2 ^ 32) :
    (if BitVec.ofNat 32 unit ≠ 0 ∨ addBase then BitVec.ofNat 32 unit + base
      else BitVec.ofNat 32 unit) = BitVec.ofNat 32 (biased base.toNat addBase unit) := by
  have hzero : BitVec.ofNat 32 unit ≠ 0 ↔ unit ≠ 0 := by
    rw [Ne, Ne, not_iff_not, BitVec.ofNat_eq_ofNat, ← BitVec.toNat_inj, BitVec.toNat_ofNat,
      BitVec.toNat_ofNat, Nat.mod_eq_of_lt hunit, Nat.zero_mod]
  simp only [biased, hzero]
  split_ifs
  · rw [BitVec.ofNat_add, BitVec.ofNat_toNat, BitVec.setWidth_eq]
  · rfl

theorem leads_unpackUnit (ram : Ram bus p holds region) (hbits : bits ∈ [1, 2, 4, 8])
    (hdest : 4 ∣ x.dest.toNat) (hroom : SpanIn region x.dest x.output.length) (h : Packs x vs u m)
    (hvs : vs ++ [biased base.toNat addBase (b.toNat % 2 ^ bits)] <+: x.values) : ∃ u' m',
    Leads (Looks holds) (unpackUnit bus p bits x.dataSize base addBase (b, u)) (cpu, m)
        (.inr (b >>> bits, u')) (cpu, m') ∧
      Packs x (vs ++ [biased base.toNat addBase (b.toNat % 2 ^ bits)]) u' m' ∧
        u'.source = u.source := by
  have hunit : b.toNat % 2 ^ bits < 2 ^ 32 :=
    Nat.lt_of_le_of_lt (Nat.mod_le _ _) (Nat.lt_trans b.isLt (by decide))
  have hvalues : ∀ v ∈ vs, v < 2 ^ x.dataSize := fun v hv =>
    x.fits v (h.vs_begins.subset hv)
  generalize hv : biased base.toNat addBase (b.toNat % 2 ^ bits) = v at hvs
  have hpending : Nat.ofDigits (2 ^ x.dataSize) (pending x.perWord vs) <
      2 ^ (x.dataSize * (pending x.perWord vs).length) := by
    rw [Nat.pow_mul]
    exact Nat.ofDigits_lt_base_pow_length x.one_lt_base fun v hv =>
      hvalues v (List.mem_of_mem_drop hv)
  have hdata : u.data ||| BitVec.ofNat 32 v <<< u.bitwritecount =
      BitVec.ofNat 32 (Nat.ofDigits (2 ^ x.dataSize) (pending x.perWord vs ++ [v])) := by
    rw [h.data, h.bitwritecount, ofNat_or_shiftLeft hpending, Nat.ofDigits_append,
      Nat.ofDigits_singleton, ← Nat.pow_mul]
  have hlt := x.length_pending_lt vs
  have hfull : 32 ≤ u.bitwritecount + x.dataSize ↔ x.perWord ≤ (pending x.perWord vs).length + 1 := by
    rw [h.bitwritecount, ← Nat.mul_succ, ← x.dataSize_mul_perWord]
    exact Nat.mul_le_mul_left_iff x.dataSize_pos
  simp only [unpackUnit, unit_eq hbits, biased_eq hunit, hv, hdata]
  split_ifs with hge
  · have hk := Nat.le_antisymm hlt (hfull.1 hge)
    have hout := packed_snoc_of_full (v := v) x.one_lt_base x.base_pow_perWord hvalues hk
    have hpend := (snoc_of_full v hk).2
    have hdiv := div_snoc_of_full v hk
    have hle := Unpacking.length_packed_le hvs
    rw [length_packed, hdiv] at hle
    have hroom' : SpanIn region u.dest 4 := by
      intro i hi
      rw [h.dest, behind_behind]
      exact hroom _ (by omega)
    have hdvd : 4 ∣ u.dest.toNat := by
      rw [h.dest]
      exact dvd_behind (by decide) hdest (Nat.dvd_mul_right ..)
    refine ⟨_, _, (ram.leads_write32 hdvd hroom' _).bind (leads_pure _ _), ⟨hvs, ?_, ?_, ?_, ?_⟩, rfl⟩
    · rw [hdiv, h.dest, Nat.mul_succ, ← behind_behind]
      rfl
    · rw [hpend]
      rfl
    · rw [hpend, List.length_nil, Nat.mul_zero]
    · have hword := Unpacking.word_lt hvs hk
      have hjoin := writeSpan_writeSpan x.memory x.dest (packed (2 ^ x.dataSize) x.perWord 4 vs)
        (leBytes 4 (Nat.ofDigits (2 ^ x.dataSize) (pending x.perWord vs ++ [v]))) (by
          rw [← hout]
          exact (Unpacking.length_packed_le hvs).trans x.length_output_le)
      rw [length_packed] at hjoin
      rw [BitVec.toNat_ofNat, Nat.mod_eq_of_lt hword, h.memory, h.dest, hjoin, hout]
  · have hsucc : (pending x.perWord vs).length + 1 < x.perWord := by
      rw [hfull] at hge
      exact Nat.lt_of_not_le hge
    have hpend := (snoc_of_lt v hsucc).2
    refine ⟨_, _, leads_pure _ _, ⟨hvs, ?_, ?_, ?_, ?_⟩, rfl⟩
    · rw [div_snoc_of_lt v hsucc]
      exact h.dest
    · rw [hpend]
    · rw [hpend, h.bitwritecount, List.length_append, List.length_singleton, Nat.mul_succ]
    · rw [packed_snoc_of_lt hsucc]
      exact h.memory

/-- The units of a byte, by induction on their number. -/
theorem leads_unpackUnits (ram : Ram bus p holds region) (hbits : bits ∈ [1, 2, 4, 8])
    (hdest : 4 ∣ x.dest.toNat) (hroom : SpanIn region x.dest x.output.length) {n : ℕ}
    (h : Packs x vs u m)
    (hvs : vs ++ (byteUnits bits n b).map (biased base.toNat addBase) <+: x.values) : ∃ b' u' m',
    Leads (Looks holds) (rounds (unpackUnit bus p bits x.dataSize base addBase) n (b, u)) (cpu, m)
        (.inr (b', u')) (cpu, m') ∧
      Packs x (vs ++ (byteUnits bits n b).map (biased base.toNat addBase)) u' m' ∧
        u'.source = u.source := by
  induction n generalizing b u m vs with
  | zero =>
    refine ⟨b, u, m, leads_pure _ _, ?_, rfl⟩
    rw [byteUnits, List.range_zero, List.map_nil, List.map_nil, List.append_nil]
    exact h
  | succ n ih =>
    rw [byteUnits_succ, List.map_cons, List.append_cons] at hvs
    obtain ⟨u', m', hunit, h', hsource⟩ := leads_unpackUnit ram hbits hdest hroom h
      ((List.prefix_append ..).trans hvs)
    obtain ⟨b', u'', m'', hrest, h'', hsource'⟩ := ih h' hvs
    refine ⟨b', u'', m'', hunit.rounds_succ hrest, ?_, hsource'.trans hsource⟩
    rw [byteUnits_succ, List.map_cons, List.append_cons]
    exact h''

theorem leads_unpackByte (ram : Ram bus p holds region) (hbits : bits ∈ [1, 2, 4, 8])
    (hdest : 4 ∣ x.dest.toNat) (hroom : SpanIn region x.dest x.output.length) (h : Packs x vs u m)
    (hbyte : HoldsSpan (x.Kept region) x.memory u.source [b])
    (hvs : vs ++ (byteUnits bits (8 / bits) b).map (biased base.toNat addBase) <+: x.values) :
    ∃ u' m',
      Leads (Looks holds) (unpackByte bus p bits x.dataSize base addBase u) (cpu, m) (.inr u')
          (cpu, m') ∧
        Packs x (vs ++ (byteUnits bits (8 / bits) b).map (biased base.toNat addBase)) u' m' ∧
          u'.source = behind u.source 1 := by
  obtain ⟨b', u', m', hunits, h', hsource⟩ :=
    leads_unpackUnits ram hbits hdest hroom (h.source (u.source + 1)) hvs
  exact ⟨u', m', (ram.leads_read08 (h.kept hbyte)).bind (hunits.bind (leads_pure _ _)), h', hsource⟩

/-- The source, by induction on the bytes that are left. -/
theorem leads_unpackBytes (ram : Ram bus p holds region) (hbits : bits ∈ [1, 2, 4, 8])
    (hdest : 4 ∣ x.dest.toNat) (hroom : SpanIn region x.dest x.output.length)
    {bytes : List (BitVec 8)} (h : Packs x vs u m)
    (hbytes : HoldsSpan (x.Kept region) x.memory u.source bytes)
    (hvs : vs ++ unitValues bits base.toNat addBase bytes = x.values) : ∃ u' m',
    Leads (Looks holds) (rounds (unpackByte bus p bits x.dataSize base addBase) bytes.length u)
        (cpu, m) (.inr u') (cpu, m') ∧ Packs x x.values u' m' := by
  induction bytes generalizing u m vs with
  | nil =>
    rw [unitValues, List.flatMap_nil, List.append_nil] at hvs
    rw [← hvs]
    exact ⟨u, m, leads_pure _ _, h⟩
  | cons b bytes ih =>
    obtain ⟨hfirst, hrest⟩ := HoldsSpan.cons_iff.1 hbytes
    rw [unitValues, List.flatMap_cons, ← unitValues, ← List.append_assoc] at hvs
    obtain ⟨u', m', hbyte, h', hsource⟩ := leads_unpackByte ram hbits hdest hroom h
      (HoldsSpan.cons_iff.2 ⟨hfirst, nofun⟩) ⟨_, hvs⟩
    rw [← hsource] at hrest
    obtain ⟨u'', m'', hloop, h''⟩ := ih h' hrest hvs
    exact ⟨u'', m'', hbyte.rounds_succ hloop, h''⟩

end Run

/-- The parameters of the call at `info`, a source that goes with them, and room for the output, none of
it where the source is. -/
structure UnpackAt (region : BitVec 32 → Prop) (m : Memory) (source dest info : BitVec 32)
    (bits dataSize : ℕ) (base : BitVec 31) (addBase : Bool) (bytes : List (BitVec 8)) : Prop where
  bits_mem : bits ∈ [1, 2, 4, 8]
  dataSize_mem : dataSize ∈ [1, 2, 4, 8, 16, 32]
  length_lt : bytes.length < 2 ^ 16
  fits : ∀ v ∈ unitValues bits base.toNat addBase bytes, v < 2 ^ dataSize
  dest_dvd : 4 ∣ dest.toNat
  info_dvd : 4 ∣ info.toNat
  info_stored : HoldsSpan region m info (leBytes 2 bytes.length ++
    [BitVec.ofNat 8 bits, BitVec.ofNat 8 dataSize] ++ leBytes 4 (BitVec.ofBool addBase ++ base).toNat)
  stored : HoldsSpan (fun a => region a ∧ ∀ i < (packed (2 ^ dataSize) (32 / dataSize) 4
    (unitValues bits base.toNat addBase bytes)).length, a ≠ behind dest i) m source bytes
  room : SpanIn region dest (packed (2 ^ dataSize) (32 / dataSize) 4
    (unitValues bits base.toNat addBase bytes)).length

theorem length_unitValues_le (bits base : ℕ) (addBase : Bool) (bytes : List (BitVec 8)) :
    (unitValues bits base addBase bytes).length ≤ 8 * bytes.length := by
  induction bytes with
  | nil => exact Nat.zero_le _
  | cons b bytes ih =>
    have hdiv := Nat.div_le_self 8 bits
    rw [unitValues, List.flatMap_cons, ← unitValues, List.length_append, List.length_map, byteUnits,
      List.length_map, List.length_range, List.length_cons]
    omega

/-- The base and its flag. -/
theorem baseWord_eq (addBase : Bool) (base : BitVec 31) :
    ((BitVec.ofBool addBase ++ base : BitVec 32) &&& 0x7fffffff).toNat = base.toNat ∧
      (BitVec.ofBool addBase ++ base : BitVec 32).getLsbD 31 = addBase := by
  constructor
  · have hmask : (0x7fffffff : BitVec 32).toNat = 2 ^ 31 - 1 := rfl
    rw [BitVec.toNat_and, BitVec.toNat_append, hmask, Nat.and_two_pow_sub_one_eq_mod,
      ← Nat.shiftLeft_add_eq_or_of_lt base.isLt, Nat.shiftLeft_eq, Nat.mul_add_mod_self_right,
      Nat.mod_eq_of_lt base.isLt]
  · rw [BitVec.getLsbD_append, if_neg (by decide)]
    cases addBase <;> rfl

section Call

variable {μ : Type} {bus : Bus μ} {p : Proc} {holds : μ → Memory → Prop} {region : BitVec 32 → Prop}
  {cpu : Proc → Armcpu} {m : Memory}

/-- The call writes the values of the source, as many as fill words. -/
theorem bitUnPack_expands (ram : Ram bus p holds region) {bits dataSize : ℕ} {base : BitVec 31}
    {addBase : Bool} {bytes : List (BitVec 8)}
    (h : UnpackAt region m ((cpu p).R 0) ((cpu p).R 1) ((cpu p).R 2) bits dataSize base addBase bytes) :
    Leads (Looks holds) (bitUnPack bus p) (cpu, m) 1
      (cpu, writeSpan m ((cpu p).R 1) (packed (2 ^ dataSize) (32 / dataSize) 4
        (unitValues bits base.toNat addBase bytes))) := by
  have hlength := length_unitValues_le bits base.toNat addBase bytes
  have hshort := h.length_lt
  let x : Unpacking := ⟨m, (cpu p).R 1, dataSize, unitValues bits base.toNat addBase bytes,
    h.dataSize_mem, h.fits, by omega⟩
  obtain ⟨hmask, hflag⟩ := baseWord_eq addBase base
  obtain ⟨hlens, hbase⟩ := HoldsSpan.append_iff.1 h.info_stored
  obtain ⟨hlen, hsizes⟩ := HoldsSpan.append_iff.1 hlens
  obtain ⟨hbits, hdataSize⟩ := HoldsSpan.cons_iff.1 hsizes
  rw [length_leBytes] at hbits hdataSize
  rw [behind_behind] at hdataSize
  rw [List.length_append, length_leBytes] at hbase
  have hbitsNat : (BitVec.ofNat 8 bits).toNat = bits := by
    have hall : ∀ s ∈ [1, 2, 4, 8], (BitVec.ofNat 8 s).toNat = s := by decide
    exact hall bits h.bits_mem
  have hdataSizeNat : (BitVec.ofNat 8 dataSize).toNat = dataSize := by
    have hall : ∀ d ∈ [1, 2, 4, 8, 16, 32], (BitVec.ofNat 8 d).toNat = d := by decide
    exact hall dataSize h.dataSize_mem
  have hlenNat : (BitVec.ofNat 16 bytes.length).toNat = bytes.length := Nat.mod_eq_of_lt hshort
  have hlenRead : Leads (Looks holds) (mmuRead16 bus p _) (cpu, m) _ (cpu, m) :=
    ram.leads_read16 (Nat.dvd_trans (by decide) h.info_dvd) hlen (length_leBytes ..)
  rw [ofLeBytes_leBytes_of_lt (n := 2) hshort] at hlenRead
  refine (leads_getR 0).bind ((leads_getR 1).bind ((leads_getR 2).bind (hlenRead.bind
    ((ram.leads_read08 (HoldsSpan.cons_iff.2 ⟨hbits, nofun⟩)).bind ?_))))
  rw [hbitsNat, if_neg (not_not.2 h.bits_mem)]
  refine (ram.leads_read08 hdataSize).bind ?_
  rw [hdataSizeNat, if_neg (not_not.2 h.dataSize_mem)]
  refine (ram.leads_readWord (dvd_behind (by decide) h.info_dvd (Nat.dvd_refl 4)) hbase).bind ?_
  have hloop : ∃ u' m', Leads (Looks holds) (rounds (unpackByte bus p bits dataSize
      ((BitVec.ofBool addBase ++ base : BitVec 32) &&& 0x7fffffff) addBase) bytes.length
      ⟨(cpu p).R 0, (cpu p).R 1, 0, 0⟩) (cpu, m) (.inr u') (cpu, m') ∧ Packs x x.values u' m' :=
    leads_unpackBytes ram h.bits_mem h.dest_dvd h.room (Packs.start x _) h.stored (by
      rw [hmask, List.nil_append])
  obtain ⟨u', m', hrun, hpacks⟩ := hloop
  have hmemory : m' = writeSpan m ((cpu p).R 1) (packed (2 ^ dataSize) (32 / dataSize) 4
      (unitValues bits base.toNat addBase bytes)) := hpacks.memory
  rw [hflag, hlenNat, ← hmemory]
  exact hrun.bind (leads_pure _ _)

end Call

section Sample

/-- A memory with a source and the parameters of the call. -/
def unpackMemory (bytes info : List (BitVec 8)) : Memory :=
  writeSpan (writeSpan (fun _ => 0) 0x02000000 bytes) 0x02000100 info

/-- The caller of the samples. -/
def unpackCaller : Proc → Armcpu := callerCpu [0x02000000, 0x02000200, 0x02000100]

/-- Four units of four bits, each above 16. -/
theorem bitUnPack_expands_sample :
    Leads (Looks (HoldsMain .arm9 0)) (bitUnPack (mmuBus Memory.noDevices fun _ => 0) .arm9)
      (unpackCaller, unpackMemory [0x21, 0x43] [2, 0, 4, 8, 16, 0, 0, 0]) 1
      (unpackCaller, writeSpan (unpackMemory [0x21, 0x43] [2, 0, 4, 8, 16, 0, 0, 0]) 0x02000200
        [0x11, 0x12, 0x13, 0x14]) :=
  have hat : UnpackAt (MainRegion .arm9 0) (unpackMemory [0x21, 0x43] [2, 0, 4, 8, 16, 0, 0, 0])
      ((unpackCaller .arm9).R 0) ((unpackCaller .arm9).R 1) ((unpackCaller .arm9).R 2) 4 8 16 false
      [0x21, 0x43] :=
    ⟨by decide, by decide, by decide, by decide, by decide, by decide, by decide, by decide,
      by decide⟩
  bitUnPack_expands (ram_mmuBus Memory.noDevices (fun _ => 0) .arm9 0) hat

/-- A unit that does not fill a word is not written. -/
theorem bitUnPack_leaves_rest :
    ¬ ∀ (m : Memory) (source dest info : BitVec 32) (bits dataSize : ℕ) (base : BitVec 31)
        (addBase : Bool) (bytes : List (BitVec 8)),
      UnpackAt (fun _ => True) m source dest info bits dataSize base addBase bytes → ∃ ret m',
        Leads (Looks Eq) (bitUnPack flatBus .arm9) (callerCpu [source, dest, info], m) ret
            (callerCpu [source, dest, info], m') ∧
          HoldsSpan (fun _ => True) m' dest
            (leBytes ((dataSize * (unitValues bits base.toNat addBase bytes).length + 7) / 8)
              (Nat.ofDigits (2 ^ dataSize) (unitValues bits base.toNat addBase bytes))) := by
  intro h
  have hat : UnpackAt (fun _ => True) (unpackMemory [1] [1, 0, 8, 8, 0, 0, 0, 0]) 0x02000000 0x02000200
      0x02000100 8 8 0 false [1] :=
    ⟨by decide, by decide, by decide, by decide, by decide, by decide, by decide, by decide,
      fun _ _ => trivial⟩
  obtain ⟨ret, m', hrun, hcells⟩ := h _ _ _ _ _ _ _ _ _ hat
  obtain ⟨s, hs, -, hm⟩ := hrun ⟨unpackCaller, unpackMemory [1] [1, 0, 8, 8, 0, 0, 0, 0]⟩ ⟨rfl, rfl⟩
  have hcell : m' 0x02000200 = 1 := (hcells 0 (by decide)).2
  have hkept : (bitUnPack flatBus .arm9 ⟨unpackCaller, unpackMemory [1] [1, 0, 8, 8, 0, 0, 0, 0]⟩).map
      (fun r => r.2.hw 0x02000200) = some 0 := by decide +kernel
  rw [hs, Option.map_some, Option.some.injEq] at hkept
  have hm' : s.hw = m' := hm
  rw [hm', hcell] at hkept
  exact absurd hkept (by decide)

end Sample

end Desmume.Bios
