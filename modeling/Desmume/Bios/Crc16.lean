import Desmume.Bios.Ram
import Desmume.Library.Crc

/-! The checksum call, which takes in half a byte at a time from a table, and the checksum of the
firmware, which takes in bits with constants that are still to be shifted. Both are the bit-serial
CRC-16. -/

namespace Desmume.Bios
open Library

def crc16Poly : BitVec 16 := 0xA001

/-- The bit-serial reflected CRC-16. -/
def crc16 (crc : BitVec 16) (bs : List (BitVec 8)) : BitVec 16 := crcBytes crc16Poly crc bs

section Nibbles

/-- Four bits are taken in. -/
def crc16Nibble (x : BitVec 16) : BitVec 16 := crcSteps (List.replicate 4 crc16Poly) x

/-- The table holds what becomes of the four bits that leave. -/
theorem crcLookup_eq (x : BitVec 16) : crcLookup x = crc16Nibble (lowBits 4 x) := by
  have htable : ∀ y : BitVec 4, crcTable.getD y.toNat 0 = crc16Nibble (y.setWidth 16) := by decide
  have hindex : (x &&& 0xF).toNat = (x.setWidth 4).toNat := by
    rw [BitVec.toNat_and, BitVec.toNat_setWidth]
    exact Nat.and_two_pow_sub_one_eq_mod x.toNat 4
  rw [crcLookup, hindex, htable, lowBits]

theorem crcNibble_eq (currVal crc : BitVec 16) (j : ℕ) :
    crcNibble currVal crc j = crc16Nibble (crc ^^^ lowBits 4 (currVal >>> (4 * j))) := by
  rw [crcNibble, crcLookup_eq, crcLookup_eq, crc16Nibble, crc16Nibble, crc16Nibble, crcSteps_xor,
    crcSteps_split _ crc, List.length_replicate]

theorem crcByte_nibbles (crc : BitVec 16) (b : BitVec 8) :
    crcByte crc16Poly crc b =
      crc16Nibble (crc16Nibble (crc ^^^ lowBits 4 (b.setWidth 16)) ^^^ b.setWidth 16 >>> 4) := by
  have hhalf : crc16Nibble (crc ^^^ b.setWidth 16) =
      crc16Nibble (crc ^^^ lowBits 4 (b.setWidth 16)) ^^^ b.setWidth 16 >>> 4 := by
    rw [crc16Nibble, crcSteps_xor, crcSteps_split _ (b.setWidth 16), List.length_replicate,
      BitVec.xor_comm (b.setWidth 16 >>> 4), ← BitVec.xor_assoc, ← crcSteps_xor]
    rfl
  rw [crcByte, List.replicate_add 4 4, crcSteps_append, ← crc16Nibble, ← crc16Nibble, hhalf]

/-- A halfword is taken in like its two bytes. -/
theorem crcHalfword_eq (crc : BitVec 16) (b b' : BitVec 8) :
    (List.range 4).foldl (crcNibble (BitVec.ofNat 16 (ofLeBytes [b, b']))) crc =
      crcByte crc16Poly (crcByte crc16Poly crc b) b' := by
  have hvalue : ofLeBytes [b, b'] = b.toNat + 256 * b'.toNat := by
    simp only [ofLeBytes, Nat.mul_zero, Nat.add_zero]
  have hb := b.isLt
  have hb' := b'.isLt
  have hnibbles : lowBits 4 (BitVec.ofNat 16 (ofLeBytes [b, b']) >>> (4 * 0)) =
        lowBits 4 (b.setWidth 16) ∧
      lowBits 4 (BitVec.ofNat 16 (ofLeBytes [b, b']) >>> (4 * 1)) = b.setWidth 16 >>> 4 ∧
      lowBits 4 (BitVec.ofNat 16 (ofLeBytes [b, b']) >>> (4 * 2)) = lowBits 4 (b'.setWidth 16) ∧
      lowBits 4 (BitVec.ofNat 16 (ofLeBytes [b, b']) >>> (4 * 3)) = b'.setWidth 16 >>> 4 := by
    refine ⟨?_, ?_, ?_, ?_⟩ <;>
    · apply BitVec.eq_of_toNat_eq
      simp only [lowBits, BitVec.toNat_setWidth, BitVec.toNat_ushiftRight, BitVec.toNat_ofNat, hvalue,
        Nat.shiftRight_eq_div_pow]
      omega
  obtain ⟨h0, h1, h2, h3⟩ := hnibbles
  rw [crcByte_nibbles, crcByte_nibbles]
  change crcNibble _ (crcNibble _ (crcNibble _ (crcNibble _ crc 0) 1) 2) 3 = _
  rw [crcNibble_eq, crcNibble_eq, crcNibble_eq, crcNibble_eq, h0, h1, h2, h3]

end Nibbles

section Firmware

/-- The constants of `calc_CRC16`. -/
def crcVal : List (BitVec 16) :=
  [0xC0C1, 0xC181, 0xC301, 0xC601, 0xCC01, 0xD801, 0xF001, 0xA001]

/-- What is taken in for a bit: its constant, which is still to be shifted. -/
def crcValShifted (j : ℕ) : BitVec 32 := (crcVal.getD j 0).setWidth 32 <<< (7 - j)

/-- The inner loop of `calc_CRC16`. -/
def calcBits (crc : BitVec 32) : BitVec 32 :=
  (List.range 8).foldl (fun crc j =>
    let doBit : Bool := crc &&& 1 ≠ 0
    let crc := crc >>> 1
    if doBit then crc ^^^ crcValShifted j else crc) crc

def calcCRC16 (start : BitVec 32) (data : List (BitVec 8)) : BitVec 32 :=
  data.foldl (fun crc b => calcBits (crc ^^^ b.setWidth 32)) (start &&& 0xffff)

theorem calcBits_eq (crc : BitVec 32) :
    calcBits crc = crcSteps ((List.range 8).map crcValShifted) crc := by
  have hbit (x : BitVec 32) : (x &&& 1 ≠ 0) = (x.getLsbD 0 = true) := by
    have hlow : x &&& 1 = (BitVec.ofBool (x.getLsbD 0)).setWidth 32 :=
      BitVec.and_one_eq_setWidth_ofBool_getLsbD
    rw [hlow]
    cases x.getLsbD 0 <;> decide
  rw [calcBits, crcSteps, List.foldl_map]
  simp only [crcStep, hbit, decide_eq_true_eq]

/-- With the upper half clear, the two checksums do the same with a byte. -/
theorem calcBits_setWidth (x : BitVec 16) :
    calcBits (x.setWidth 32) = (crcSteps (List.replicate 8 crc16Poly) x).setWidth 32 := by
  have hlow : ∀ y : BitVec 8, crcSteps ((List.range 8).map crcValShifted) (y.setWidth 32) =
      (crcSteps (List.replicate 8 crc16Poly) (y.setWidth 16)).setWidth 32 := by decide +kernel
  have hcut : (x.setWidth 32).setWidth 8 = x.setWidth 8 := by
    apply BitVec.eq_of_toNat_eq
    simp only [BitVec.toNat_setWidth]
    omega
  have hshift : x.setWidth 32 >>> 8 = (x >>> 8).setWidth 32 := by
    apply BitVec.eq_of_toNat_eq
    simp only [BitVec.toNat_setWidth, BitVec.toNat_ushiftRight, Nat.shiftRight_eq_div_pow]
    omega
  rw [calcBits_eq, crcSteps_split, crcSteps_split _ x, List.length_map, List.length_range,
    List.length_replicate, lowBits, lowBits, hcut, hlow, BitVec.setWidth_xor, hshift]

theorem calcCRC16_eq (start : BitVec 32) (data : List (BitVec 8)) :
    calcCRC16 start data = (crc16 (start.setWidth 16) data).setWidth 32 := by
  have hstart : start &&& 0xffff = (start.setWidth 16).setWidth 32 := by
    apply BitVec.eq_of_toNat_eq
    rw [BitVec.toNat_and, BitVec.toNat_setWidth, BitVec.toNat_setWidth]
    have hmod := Nat.and_two_pow_sub_one_eq_mod start.toNat 16
    have hlt := start.isLt
    change start.toNat &&& 2 ^ 16 - 1 = _
    omega
  rw [calcCRC16, hstart]
  generalize start.setWidth 16 = crc
  induction data generalizing crc with
  | nil => rfl
  | cons b data ih =>
    have hbyte : crc.setWidth 32 ^^^ b.setWidth 32 = (crc ^^^ b.setWidth 16).setWidth 32 := by
      have hwide : (b.setWidth 16).setWidth 32 = b.setWidth 32 := by
        apply BitVec.eq_of_toNat_eq
        simp only [BitVec.toNat_setWidth]
        omega
      rw [BitVec.setWidth_xor, hwide]
    rw [List.foldl_cons, hbyte, calcBits_setWidth, ih]
    rfl

end Firmware

section Call

variable {μ : Type} {bus : Bus μ} {p : Proc} {holds : μ → Memory → Prop} {region : BitVec 32 → Prop}
  {cpu : Proc → Armcpu} {m : Memory}

/-- The loop over the halfwords, by induction on how many there are. -/
theorem leads_crcHalfwords (ram : Ram bus p holds region) {n : ℕ} {a : BitVec 32}
    (crc currVal : BitVec 16) {bs : List (BitVec 8)} (ha : 2 ∣ a.toNat)
    (h : HoldsSpan region m a bs) (hbs : bs.length = 2 * n) :
    ∃ last, Leads (Looks holds) (crcHalfwords bus p n a crc currVal) (cpu, m) (crc16 crc bs, last)
      (cpu, m) := by
  induction n generalizing a crc currVal bs with
  | zero =>
    obtain rfl := List.eq_nil_of_length_eq_zero hbs
    exact ⟨currVal, leads_pure _ _⟩
  | succ n ih =>
    obtain ⟨b, b', bs, rfl⟩ : ∃ b b' rest, bs = b :: b' :: rest := by
      match bs, hbs with
      | b :: b' :: rest, _ => exact ⟨b, b', rest, rfl⟩
    have hsplit : HoldsSpan region m a ([b, b'] ++ bs) := h
    obtain ⟨hfirst, hrest⟩ := HoldsSpan.append_iff.1 hsplit
    have hlength : bs.length = 2 * n := by
      simp only [List.length_cons] at hbs
      omega
    obtain ⟨last, hloop⟩ := ih (crc16 crc [b, b']) (BitVec.ofNat 16 (ofLeBytes [b, b']))
      (even_behind ha ⟨1, rfl⟩) hrest hlength
    refine ⟨last, (ram.leads_read16 ha hfirst rfl).bind ?_⟩
    rw [crcHalfword_eq]
    exact hloop

/-- The checksum call gives the bit-serial checksum of whole halfwords; the checksum of a
concatenation goes on from the one of the first part, and the firmware has the same checksum. -/
theorem getCRC16_crc16 (ram : Ram bus p holds region) {bs : List (BitVec 8)}
    (haddr : 2 ∣ ((cpu p).R 1).toNat)
    (hlength : bs.length = ((cpu p).R 2).toNat / 2 * 2)
    (hdata : HoldsSpan region m ((cpu p).R 1) bs) :
    (∃ last, Leads (Looks holds) (getCRC16 bus p) (cpu, m) 1
      (Function.update cpu p
        (((cpu p).setR 0 ((crc16 (((cpu p).R 0).setWidth 16) bs).setWidth 32)).setR 3 last), m)) ∧
      (∀ crc as bs, crc16 crc (as ++ bs) = crc16 (crc16 crc as) bs) ∧
      ∀ start data, calcCRC16 start data = (crc16 (start.setWidth 16) data).setWidth 32 := by
  refine ⟨?_, crcBytes_append crc16Poly, calcCRC16_eq⟩
  have hsize : bs.length = 2 * ((cpu p).R 2 >>> 1).toNat := by
    rw [hlength, BitVec.toNat_ushiftRight, Nat.shiftRight_eq_div_pow, Nat.mul_comm]
  obtain ⟨last, hloop⟩ : ∃ last, Leads (Looks holds)
      (crcHalfwords bus p ((cpu p).R 2 >>> 1).toNat ((cpu p).R 1) (((cpu p).R 0).setWidth 16) 0)
      (cpu, m) (crc16 (((cpu p).R 0).setWidth 16) bs, last) (cpu, m) :=
    leads_crcHalfwords ram _ _ haddr hdata hsize
  refine ⟨last.setWidth 32, ?_⟩
  refine (leads_getR 0).bind ((leads_getR 1).bind ((leads_getR 2).bind (hloop.bind ?_)))
  have hsame : (cpu, m) = (Function.update cpu p (cpu p), m) := by rw [Function.update_eq_self]
  rw [hsame]
  exact (leads_setR _ 0 _).bind ((leads_setR _ 3 _).bind (leads_pure _ _))

/-- Two bytes of main memory. -/
def crcMemory : Memory := writeSpan (fun _ => 0) 0x02000000 [0x31, 0x32]

/-- A caller that asks for three bytes. -/
def crcCaller : Proc → Armcpu := callerCpu [0xFFFF, 0x02000000, 3]

theorem getCRC16_crc16_sample :
    ∃ last, Leads (Looks (HoldsMain .arm7 0)) (getCRC16 (mmuBus Memory.noDevices fun _ => 0) .arm7)
      (crcCaller, crcMemory) 1
      (Function.update crcCaller .arm7
        (((crcCaller .arm7).setR 0 ((crc16 0xFFFF [0x31, 0x32]).setWidth 32)).setR 3 last),
        crcMemory) := by
  have hdata : HoldsSpan (MainRegion .arm7 0) crcMemory ((crcCaller .arm7).R 1) [0x31, 0x32] := by
    decide
  exact (getCRC16_crc16 (ram_mmuBus Memory.noDevices (fun _ => 0) .arm7 0) (by decide) rfl hdata).1

end Call

end Desmume.Bios
