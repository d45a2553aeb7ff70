import Desmume.Library.BitFields
import Desmume.Library.SignedWord
import Desmume.Sound.AdpcmDefs

/-! The decoding of ADPCM data nibble by nibble, and what the fetch of a sample does to the decoder of
a channel: it goes on behind the last position and stops at the present one. -/

namespace Desmume.Sound
open Library

/-! ### The decoder -/

/-- What a decoder knows between two nibbles: a sample and a row of the tables. -/
@[ext]
structure AdpcmSample where
  predictor : BitVec 16
  index : ℕ
  index_le : index ≤ 88

namespace AdpcmSample

/-- The difference that a nibble stands for: three bits scale the step, and the fourth is the sign. -/
def difference (s : AdpcmSample) (nibble : BitVec 4) : ℤ :=
  let size := (2 * (nibble.toNat % 8) + 1) * adpcmtbl.getD s.index 0 / 8
  if nibble.msb then -(size : ℤ) else size

def next (s : AdpcmSample) (nibble : BitVec 4) : AdpcmSample where
  predictor := saturate 16 (s.predictor.toInt + s.difference nibble)
  index := (max 0 (min (s.index + indextbl.getD (nibble.toNat % 8) 0) 88)).toNat
  index_le := by omega

end AdpcmSample

/-- The nibbles from an address on, the lower one of each byte first. -/
def nibbleAt (read08 : BitVec 32 → BitVec 8) (addr : BitVec 32) (i : ℕ) : BitVec 4 :=
  let byte := read08 (addr + BitVec.ofNat 32 (i / 2))
  if i % 2 = 0 then byte.setWidth 4 else (byte >>> 4).setWidth 4

/-! ### The tables of the code -/

theorem minMax_eq {val low high : ℤ} (h : low ≤ high) :
    minMax val low high = max low (min val high) := by
  rw [minMax]
  split_ifs <;> omega

theorem precalcdifftbl_eq (s : AdpcmSample) (nibble : BitVec 4) :
    precalcdifftbl s.index nibble.toNat = some (s.difference nibble) := by
  have hrow : adpcmtbl[s.index]? = some (adpcmtbl.getD s.index 0) := by
    have hlt : s.index < adpcmtbl.length := Nat.lt_succ_of_le s.index_le
    rw [List.getD_eq_getElem?_getD, List.getElem?_eq_getElem hlt, Option.getD_some]
  have hscale : ∀ n : BitVec 4, (n.toNat &&& 0x7) * 2 + 1 = 2 * (n.toNat % 8) + 1 := by decide
  have hsign : ∀ n : BitVec 4, (n.toNat &&& 0x8 ≠ 0) = (n.msb = true) := by decide
  rw [precalcdifftbl, hrow, Option.map_some, AdpcmSample.difference]
  simp only [hscale, hsign]

theorem precalcindextbl_eq (s : AdpcmSample) (nibble : BitVec 4) :
    ∃ b : BitVec 8, precalcindextbl s.index (nibble.toNat % 8) = some b ∧
      b.toNat = (s.next nibble).index := by
  refine ⟨_, if_pos (Nat.lt_succ_of_le s.index_le), ?_⟩
  rw [minMax_eq (by decide), BitVec.toNat_ofInt]
  simp only [AdpcmSample.next]
  omega

/-! ### The fetch of a sample -/

namespace AdpcmChannel

/-- The decoder of the channel stands at a sample. -/
structure StandsAt (c : AdpcmChannel) (s : AdpcmSample) : Prop where
  pcm16b : c.pcm16b = s.predictor
  index : c.index.toNat = s.index

/-- The channel without what the fetch of a sample may change. -/
def undecoded (c : AdpcmChannel) : AdpcmChannel :=
  { c with pcm16b := 0, pcm16bLast := 0, index := 0, lastsampcnt := 0, loopIndex := 0, loopPcm16b := 0 }

/-- The row the channel goes back to is one of the tables' or is none yet. -/
def LoopKept (c : AdpcmChannel) : Prop :=
  c.loopIndex = kAdpcmLoopingRecoveryIndex ∨ c.loopIndex.toNat ≤ 88

/-- What decoding does to the channel `c`, which ends at `s`. -/
structure Decoded (c c' : AdpcmChannel) (s : AdpcmSample) : Prop where
  stands : c'.StandsAt s
  same : c'.undecoded = c.undecoded
  kept : c.LoopKept → c'.LoopKept

variable (env : SpuEnv ℚ) (c : AdpcmChannel)

theorem toNat_nibbleAt (read08 : BitVec 32 → BitVec 8) (addr : BitVec 32) (i : ℕ) :
    (nibbleAt read08 addr i).toNat =
      (read08 (addr + BitVec.ofNat 32 (i / 2))).toNat / 2 ^ (i % 2 * 4) % 2 ^ 4 := by
  rw [nibbleAt]
  rcases Nat.mod_two_eq_zero_or_one i with h | h
  · rw [if_pos h, h, BitVec.toNat_setWidth, Nat.zero_mul, Nat.pow_zero, Nat.div_one]
  · rw [if_neg (by omega), h, BitVec.toNat_setWidth, BitVec.toNat_ushiftRight, Nat.one_mul,
      Nat.shiftRight_eq_div_pow]

theorem toNat_data4bit {i : ℕ} (hi : i < 2 ^ 32) :
    ((env.read08 (c.addr + BitVec.ofNat 32 i >>> 1)).setWidth 32 >>>
      ((BitVec.ofNat 32 i &&& 1) <<< 2).toNat).toNat % 2 ^ 4 =
      (nibbleAt env.read08 c.addr i).toNat := by
  have hhalf : BitVec.ofNat 32 i >>> 1 = BitVec.ofNat 32 (i / 2) := by
    apply BitVec.eq_of_toNat_eq
    rw [BitVec.toNat_ushiftRight, BitVec.toNat_ofNat, BitVec.toNat_ofNat, Nat.shiftRight_one]
    omega
  have hshift : ((BitVec.ofNat 32 i &&& 1) <<< 2).toNat = i % 2 * 4 := by
    rw [BitVec.toNat_shiftLeft, @toNat_and_mask _ _ 1 1 rfl, BitVec.toNat_ofNat, Nat.shiftLeft_eq]
    omega
  rw [hhalf, hshift, toNat_nibbleAt, BitVec.toNat_ushiftRight, Nat.shiftRight_eq_div_pow,
    BitVec.toNat_setWidth_of_le (by decide)]

theorem standsAt_moveTo {c : AdpcmChannel} {s : AdpcmSample} (h : c.StandsAt s) {nibble : BitVec 4}
    {b : BitVec 8} (hb : b.toNat = (s.next nibble).index) :
    (c.moveTo (s.difference nibble) b).StandsAt (s.next nibble) := by
  constructor
  · change BitVec.ofInt 16 (minMax (c.pcm16b.toInt + s.difference nibble) (-0x8000) 0x7FFF) = _
    rw [h.pcm16b, minMax_eq (by decide)]
    rfl
  · exact (BitVec.toNat_setWidth_of_le (by decide)).trans hb

theorem undecoded_snagLoop (i : BitVec 32) : (c.snagLoop i).undecoded = c.undecoded := by
  rw [snagLoop]
  split_ifs <;> rfl

variable {c} in
theorem Decoded.snagLoop {c' : AdpcmChannel} {s : AdpcmSample} (h : c.Decoded c' s)
    (i : BitVec 32) : c.Decoded (c'.snagLoop i) s := by
  rw [AdpcmChannel.snagLoop]
  split_ifs
  · refine ⟨⟨h.stands.pcm16b, h.stands.index⟩, h.same, fun _ => .inr ?_⟩
    exact h.stands.index.trans_le s.index_le
  · exact h

/-- A round of the loop is a step of the decoder. -/
theorem decodeAt_decoded {s : AdpcmSample} (h : c.StandsAt s) {i : ℕ} (hi : i < 2 ^ 32) :
    ∃ c', c.decodeAt env (BitVec.ofNat 32 i) = some c' ∧
      c.Decoded c' (s.next (nibbleAt env.read08 c.addr i)) := by
  have hnibble := toNat_data4bit env c hi
  have hdiff := precalcdifftbl_eq s (nibbleAt env.read08 c.addr i)
  obtain ⟨b, hb, hindex⟩ := precalcindextbl_eq s (nibbleAt env.read08 c.addr i)
  have hlow (x : ℕ) : x % 2 ^ 3 = x % 2 ^ 4 % 8 := by omega
  refine ⟨(c.moveTo (s.difference (nibbleAt env.read08 c.addr i)) b).snagLoop (BitVec.ofNat 32 i),
    ?_, ?_⟩
  · rw [decodeAt, @toNat_and_mask _ _ 0xF 4 rfl, @toNat_and_mask _ _ 0x7 3 rfl, hlow, hnibble,
      h.index, hdiff, hb]
    rfl
  · apply Decoded.snagLoop
    exact ⟨standsAt_moveTo h hindex, rfl, id⟩

/-- What does not look at the decoder. -/
theorem eq_of_undecoded {β : Type} {c c' : AdpcmChannel} (h : c'.undecoded = c.undecoded)
    (f : AdpcmChannel → β) (hf : ∀ d, f d.undecoded = f d) : f c' = f c := by
  rw [← hf c', h, hf]

theorem Decoded.trans {c c' c'' : AdpcmChannel} {s s' : AdpcmSample} (h : c.Decoded c' s)
    (h' : c'.Decoded c'' s') : c.Decoded c'' s' :=
  ⟨h'.stands, h'.same.trans h.same, fun hkept => h'.kept (h.kept hkept)⟩

theorem Decoded.eq_of {β : Type} {c c' : AdpcmChannel} {s : AdpcmSample} (h : c.Decoded c' s)
    (f : AdpcmChannel → β) (hf : ∀ d, f d.undecoded = f d) : f c' = f c := eq_of_undecoded h.same f hf

/-- The nibbles from `a` up to `b`, taken in order. -/
def decodeNibbles (env : SpuEnv ℚ) (addr : BitVec 32) (a b : ℕ) (s : AdpcmSample) : AdpcmSample :=
  consume AdpcmSample.next (nibbleAt env.read08 addr) a b s

theorem decodeNibbles_of_le (addr : BitVec 32) {a b : ℕ} (h : b ≤ a) (s : AdpcmSample) :
    decodeNibbles env addr a b s = s := consume_of_le h s

theorem decodeNibbles_decodeNibbles (addr : BitVec 32) {a b d : ℕ} (hab : a ≤ b) (hbd : b ≤ d)
    (s : AdpcmSample) :
    decodeNibbles env addr b d (decodeNibbles env addr a b s) = decodeNibbles env addr a d s :=
  consume_consume hab hbd s

/-- The fetch decodes the nibbles behind the last position up to the present one. -/
theorem fetchADPCMData_decoded {s : AdpcmSample} (h : c.StandsAt s) :
    ∃ c', c.fetchADPCMData env = some (c'.pcm16b.signExtend 32, c') ∧
      c.Decoded c' (decodeNibbles env c.addr (c.lastsampcnt + 1).toNat
        (sputrunc (c.sampcnt + 1)).toNat s) ∧
      c'.lastsampcnt = sputrunc c.sampcnt := by
  obtain ⟨c₁, hloop, hdec⟩ := @consumeM_follows _ _ _ AdpcmSample.next (nibbleAt env.read08 c.addr)
    (c.lastsampcnt + 1).toNat (sputrunc (c.sampcnt + 1)).toNat
    (fun c i => c.decodeAt env (BitVec.ofNat 32 i)) (fun c' s' => c.Decoded c' s')
    (fun c' s' i hi hd => by
      obtain ⟨c₂, hsome, hround⟩ := c'.decodeAt_decoded env hd.stands
        (hi.trans (sputrunc (c.sampcnt + 1)).isLt)
      rw [hd.eq_of (fun d => d.addr) fun _ => rfl] at hround
      exact ⟨c₂, hsome, hd.trans hround⟩)
    c s ⟨h, rfl, id⟩
  have hsampcnt : c₁.sampcnt = c.sampcnt := hdec.eq_of (fun d => d.sampcnt) fun _ => rfl
  refine ⟨{ c₁ with lastsampcnt := sputrunc c₁.sampcnt }, ?_,
    ⟨⟨hdec.stands.pcm16b, hdec.stands.index⟩, hdec.same, hdec.kept⟩, congrArg sputrunc hsampcnt⟩
  rw [fetchADPCMData, hloop]
  rfl

/-- A decoder on a row of the tables does not leave them. -/
theorem fetchSample_decoded {s : AdpcmSample} (h : c.StandsAt s) :
    ∃ data c' s', c.fetchSample env = some (data, c') ∧ c.Decoded c' s' := by
  rw [fetchSample]
  split_ifs
  · exact ⟨_, c, s, rfl, h, rfl, id⟩
  · exact ⟨_, c, s, rfl, h, rfl, id⟩
  · obtain ⟨c', hfetch, hdec, -⟩ := c.fetchADPCMData_decoded env h
    exact ⟨_, c', _, hfetch, hdec⟩

variable {env c} in
theorem undecoded_decodeAt {i : BitVec 32} {c' : AdpcmChannel} (h : c.decodeAt env i = some c') :
    c'.undecoded = c.undecoded := by
  obtain ⟨diff, -, h⟩ := Option.bind_eq_some_iff.mp h
  obtain ⟨index, -, h⟩ := Option.bind_eq_some_iff.mp h
  rw [← Option.some.inj h, undecoded_snagLoop]
  rfl

variable {env c} in
/-- Whatever the fetch does, it leaves what is not of the decoder. -/
theorem undecoded_fetchSample {data : BitVec 32} {c' : AdpcmChannel}
    (h : c.fetchSample env = some (data, c')) : c'.undecoded = c.undecoded := by
  rw [fetchSample] at h
  split_ifs at h
  · obtain ⟨-, rfl⟩ := Prod.mk.inj (Option.some.inj h)
    rfl
  · obtain ⟨-, rfl⟩ := Prod.mk.inj (Option.some.inj h)
    rfl
  · obtain ⟨c₁, hloop, h⟩ := Option.bind_eq_some_iff.mp h
    obtain ⟨-, rfl⟩ := Prod.mk.inj (Option.some.inj h)
    exact @runM_invariant _ _ _ (fun d => d.undecoded = c.undecoded)
      (fun d i d' hd hround => (undecoded_decodeAt hround).trans hd) _ _ _ rfl hloop

/-- The nibble a position lies in. -/
def position : ℕ := ⌊c.sampcnt⌋₊

theorem toNat_sputrunc {x : ℚ} (h : 0 ≤ x) (hlt : x < 2 ^ 32) : (sputrunc x).toNat = ⌊x⌋₊ := by
  have hfloor : x.num.tdiv x.den = ⌊x⌋ := by
    rw [Int.tdiv_eq_ediv_of_nonneg (Rat.num_nonneg.mpr h), Rat.floor_def']
  have hbound : ⌊x⌋ < 2 ^ 32 := Int.floor_lt.mpr (by exact_mod_cast hlt)
  have hpos : 0 ≤ ⌊x⌋ := Int.floor_nonneg.mpr h
  rw [sputrunc, hfloor, BitVec.toNat_ofInt, ← Int.floor_toNat]
  omega

/-- What the fetch decodes where positions fit a word. -/
theorem fetchSample_decodes {s : AdpcmSample} (h : c.StandsAt s) (hpos : 0 ≤ c.sampcnt)
    (hlt : c.sampcnt + 1 < 2 ^ 32) (hlast : c.lastsampcnt.toNat + 1 < 2 ^ 32) :
    ∃ c', c.fetchSample env = some (c'.pcm16b.signExtend 32, c') ∧
      c.Decoded c' (decodeNibbles env c.addr (c.lastsampcnt.toNat + 1) (c.position + 1) s) ∧
      c'.lastsampcnt.toNat = c.position := by
  have hnow : (sputrunc c.sampcnt).toNat = c.position := toNat_sputrunc hpos (by linarith)
  have hnext : (sputrunc (c.sampcnt + 1)).toNat = c.position + 1 := by
    rw [toNat_sputrunc (by linarith) hlt, Nat.floor_add_one hpos]
    rfl
  have hbehind : (c.lastsampcnt + 1).toNat = c.lastsampcnt.toNat + 1 := by
    rw [BitVec.toNat_add_of_lt hlast]
    rfl
  rw [fetchSample, if_neg (not_lt.mpr hpos)]
  split_ifs with hsame
  · refine ⟨c, rfl, ⟨?_, rfl, id⟩, hsame ▸ hnow⟩
    rwa [← hnow, hsame, decodeNibbles_of_le _ _ (Nat.le_refl _)]
  · obtain ⟨c', hfetch, hdec, hlast'⟩ := c.fetchADPCMData_decoded env h
    rw [hbehind, hnext] at hdec
    exact ⟨c', hfetch, hdec, hlast' ▸ hnow⟩

end AdpcmChannel

end Desmume.Sound
