import Desmume.Library.BitFields
import Desmume.Sound.SpuFields

/-! Reads of the sound registers at the three widths: a wider read is its halves. -/

namespace Desmume.Sound
open Library

variable {φ : Type}

section Addresses

variable {addr d : ℕ}

theorem isChannel_iff (addr : ℕ) : SpuStruct.isChannel addr ↔ addr / 256 % 16 = 4 := by
  rw [SpuStruct.isChannel, and_rangeMask (j := 8) (k := 12) addr (by decide) (by decide)]
  omega

/-- The addresses of one channel are blocks of sixteen. -/
theorem isChannel_add (h : (addr + d) / 16 = addr / 16) :
    SpuStruct.isChannel (addr + d) ↔ SpuStruct.isChannel addr := by
  rw [isChannel_iff, isChannel_iff]
  omega

theorem chanNum_add (h : (addr + d) / 16 = addr / 16) :
    SpuStruct.chanNum (addr + d) = SpuStruct.chanNum addr := by
  rw [SpuStruct.chanNum, SpuStruct.chanNum, Nat.shiftRight_eq_div_pow, Nat.shiftRight_eq_div_pow]
  exact congrArg (Fin.ofNat 16) h

theorem reg_eq (addr : ℕ) : addr &&& 0xF = addr % 16 := and_lowMask (n := 4) addr (by decide)

theorem reg_add (h : (addr + d) / 16 = addr / 16) : (addr + d) &&& 0xF = (addr &&& 0xF) + d := by
  rw [reg_eq, reg_eq]
  omega

theorem even_reg {reg : ℕ} (h : 2 ∣ reg) (hlt : reg < 16) :
    reg = 0 ∨ reg = 2 ∨ reg = 4 ∨ reg = 6 ∨ reg = 8 ∨ reg = 10 ∨ reg = 12 ∨ reg = 14 := by
  omega

theorem quad_reg {reg : ℕ} (h : 4 ∣ reg) (hlt : reg < 16) :
    reg = 0 ∨ reg = 4 ∨ reg = 8 ∨ reg = 12 := by
  omega

/-- The even addresses of the registers that belong to no channel. -/
theorem even_common (h : 2 ∣ addr) (hlo : 0x500 ≤ addr) (hhi : addr < 0x51E) :
    addr = 0x500 ∨ addr = 0x504 ∨ addr = 0x508 ∨ addr = 0x510 ∨ addr = 0x512 ∨ addr = 0x514 ∨
      addr = 0x518 ∨ addr = 0x51A ∨ addr = 0x51C ∨ addr = 0x502 ∨ addr = 0x506 ∨ addr = 0x50A ∨
      addr = 0x50C ∨ addr = 0x50E ∨ addr = 0x516 := by
  omega

theorem quad_common (h : 4 ∣ addr) (hlo : 0x500 ≤ addr) (hhi : addr < 0x51E) :
    addr = 0x500 ∨ addr = 0x504 ∨ addr = 0x508 ∨ addr = 0x510 ∨ addr = 0x514 ∨ addr = 0x518 ∨
      addr = 0x51C ∨ addr = 0x50C := by
  omega

end Addresses

namespace ChannelStruct

theorem playBit_shiftLeft (c : ChannelStruct φ) (w bit : ℕ) {v n : ℕ} (hbit : bit < w) :
    (c.playBit w bit).setWidth v <<< n = c.playBit v (bit + n) := by
  rw [playBit, playBit]
  by_cases hplay : c.status = chanstatPlay
  · have hone : (1#w).toNat < 2 ^ 1 := by
      rw [BitVec.toNat_ofNat]
      exact Nat.lt_of_le_of_lt (Nat.mod_le _ _) (by decide)
    rw [if_pos hplay, if_pos hplay, setWidth_shiftLeft_of_fits hone (by omega),
      BitVec.setWidth_ofNat_one_eq_ofNat_one_of_lt (by omega), ← BitVec.shiftLeft_add]
  · rw [if_neg hplay, if_neg hplay, BitVec.setWidth_zero, BitVec.zero_shiftLeft]

variable {c : ChannelStruct φ}

theorem readWord_eq (hc : c.FieldsFit) {reg : ℕ} (h : 2 ∣ reg) (hlt : reg < 16) :
    c.readWord reg = (c.readByte reg).setWidth 16 ||| (c.readByte (reg + 1)).setWidth 16 <<< 8 := by
  rcases even_reg h hlt with rfl | rfl | rfl | rfl | rfl | rfl | rfl | rfl
  · simp only [readWord, readByte, BitVec.setWidth_or,
      setWidth_shiftLeft_of_fits hc.hold (n := 7) (w := 8) (by decide),
      BitVec.shiftLeft_or_distrib, ← BitVec.shiftLeft_add, BitVec.or_assoc]
  · simp only [readWord, readByte, BitVec.setWidth_or,
      setWidth_shiftLeft_of_fits hc.repeatMode (n := 3) (w := 8) (by decide),
      setWidth_shiftLeft_of_fits hc.format (n := 5) (w := 8) (by decide),
      c.playBit_shiftLeft 8 7 (by decide), Nat.reduceAdd,
      BitVec.shiftLeft_or_distrib, ← BitVec.shiftLeft_add, BitVec.or_assoc]
  · exact (or_parts_zero 8 8 16).symm
  · exact (or_parts_zero 8 8 16).symm
  · exact ((or_parts_low c.timer 8 8 16).trans (BitVec.setWidth_eq c.timer)).symm
  · exact ((or_parts_low c.loopstart 8 8 16).trans (BitVec.setWidth_eq c.loopstart)).symm
  · exact (or_parts_zero 8 8 16).symm
  · exact (or_parts_zero 8 8 16).symm

theorem readLong_eq (hc : c.FieldsFit) {reg : ℕ} (h : 4 ∣ reg) (hlt : reg < 16) :
    c.readLong reg = (c.readWord reg).setWidth 32 ||| (c.readWord (reg + 2)).setWidth 32 <<< 16 := by
  rcases quad_reg h hlt with rfl | rfl | rfl | rfl
  · have hhold : (c.hold.setWidth 16).toNat < 2 ^ 1 := toNat_setWidth_lt hc.hold 16
    have hwave : (c.waveduty.setWidth 16).toNat < 2 ^ 3 := toNat_setWidth_lt hc.waveduty 16
    have hrepeat : (c.repeatMode.setWidth 16).toNat < 2 ^ 2 := toNat_setWidth_lt hc.repeatMode 16
    have hformat : (c.format.setWidth 16).toNat < 2 ^ 2 := toNat_setWidth_lt hc.format 16
    have hdiv : (c.volumeDiv.setWidth 16).toNat < 2 ^ 2 := toNat_setWidth_lt hc.volumeDiv 16
    simp only [readLong, readWord, BitVec.setWidth_or,
      setWidth_shiftLeft_of_fits hdiv (n := 8) (w := 16) (by decide),
      setWidth_shiftLeft_of_fits hhold (n := 15) (w := 16) (by decide),
      setWidth_shiftLeft_of_fits hwave (n := 8) (w := 16) (by decide),
      setWidth_shiftLeft_of_fits hrepeat (n := 11) (w := 16) (by decide),
      setWidth_shiftLeft_of_fits hformat (n := 13) (w := 16) (by decide),
      c.playBit_shiftLeft 16 15 (by decide),
      BitVec.setWidth_setWidth (show ¬ (16 < 8 ∧ 16 < 32) by decide), Nat.reduceAdd,
      BitVec.shiftLeft_or_distrib, ← BitVec.shiftLeft_add, BitVec.or_assoc]
  · exact (or_parts_zero 16 16 32).symm
  · rfl
  · exact (or_parts_zero 16 16 32).symm

end ChannelStruct

namespace SpuStruct

variable {s : SpuStruct φ} {addr : ℕ}

theorem readByte_channel (h : isChannel addr) :
    s.readByte addr = (s.channels (chanNum addr)).readByte (addr &&& 0xF) := if_pos h

theorem readWord_channel (h : isChannel addr) :
    s.readWord addr = (s.channels (chanNum addr)).readWord (addr &&& 0xF) := if_pos h

theorem readLong_channel (h : isChannel addr) :
    s.readLong addr = (s.channels (chanNum addr)).readLong (addr &&& 0xF) := if_pos h

theorem readByte_outside (h : ¬ isChannel addr) (hout : addr < 0x500 ∨ 0x51E ≤ addr) :
    s.readByte addr = 0 := by
  unfold readByte
  rw [if_neg h]
  split <;> first | rfl | omega

theorem readWord_outside (h : ¬ isChannel addr) (hout : addr < 0x500 ∨ 0x51E ≤ addr) :
    s.readWord addr = 0 := by
  unfold readWord
  rw [if_neg h]
  split <;> first | rfl | omega

theorem readLong_outside (h : ¬ isChannel addr) (hout : addr < 0x500 ∨ 0x51E ≤ addr) :
    s.readLong addr = 0 := by
  unfold readLong
  rw [if_neg h]
  split <;> first | rfl | omega

/-- The upper byte of `SOUNDCNT`, as the wider reads place it. -/
theorem master_shiftLeft (hs : s.FieldsFit) :
    (s.readByte 0x501).setWidth 16 <<< 8 =
      s.ctlLeft.setWidth 16 <<< 8 ||| s.ctlRight.setWidth 16 <<< 10 |||
        s.ctlCh1bypass.setWidth 16 <<< 12 ||| s.ctlCh3bypass.setWidth 16 <<< 13 |||
        s.masteren.setWidth 16 <<< 15 := by
  have hread : s.readByte 0x501 =
      s.ctlLeft ||| s.ctlRight <<< 2 ||| s.ctlCh1bypass <<< 4 ||| s.ctlCh3bypass <<< 5 |||
        s.masteren <<< 7 := rfl
  simp only [hread, BitVec.setWidth_or,
    setWidth_shiftLeft_of_fits hs.ctlRight (n := 2) (w := 8) (by decide),
    setWidth_shiftLeft_of_fits hs.ctlCh1bypass (n := 4) (w := 8) (by decide),
    setWidth_shiftLeft_of_fits hs.ctlCh3bypass (n := 5) (w := 8) (by decide),
    setWidth_shiftLeft_of_fits hs.masteren (n := 7) (w := 8) (by decide), Nat.reduceAdd,
    BitVec.shiftLeft_or_distrib, ← BitVec.shiftLeft_add]

theorem readWord_common (hs : s.FieldsFit) (h : 2 ∣ addr) (hlo : 0x500 ≤ addr)
    (hhi : addr < 0x51E) :
    s.readWord addr = (s.readByte addr).setWidth 16 ||| (s.readByte (addr + 1)).setWidth 16 <<< 8 := by
  have hword : ∀ x : BitVec 16,
      x = (x.setWidth 8).setWidth 16 ||| ((x >>> 8).setWidth 8).setWidth 16 <<< 8 := by
    intro x
    rw [or_parts_low x 8 8 16, BitVec.setWidth_eq, BitVec.setWidth_eq]
  have hlow : ∀ x : BitVec 32, x.setWidth 16 =
      (x.setWidth 8).setWidth 16 ||| ((x >>> 8).setWidth 8).setWidth 16 <<< 8 := by
    intro x
    rw [or_parts_low x 8 8 16, BitVec.setWidth_eq]
  have hhigh : ∀ x : BitVec 32, (x >>> 16).setWidth 16 =
      ((x >>> 16).setWidth 8).setWidth 16 ||| ((x >>> 24).setWidth 8).setWidth 16 <<< 8 := by
    intro x
    have hparts := or_parts x 16 8 8 16
    rwa [BitVec.setWidth_eq, eq_comm] at hparts
  rcases even_common h hlo hhi with rfl | rfl | rfl | rfl | rfl | rfl | rfl | rfl | rfl | hzero
  · rw [master_shiftLeft hs]
    have hread : s.readWord 0x500 =
        s.mastervol.setWidth 16 ||| s.ctlLeft.setWidth 16 <<< 8 |||
          s.ctlRight.setWidth 16 <<< 10 ||| s.ctlCh1bypass.setWidth 16 <<< 12 |||
          s.ctlCh3bypass.setWidth 16 <<< 13 ||| s.masteren.setWidth 16 <<< 15 := rfl
    have hvol : s.readByte 0x500 = s.mastervol := rfl
    simp only [hread, hvol, BitVec.or_assoc]
  · exact hword s.soundbias
  · rfl
  · exact hlow (s.cap 0).dad
  · exact hhigh (s.cap 0).dad
  · exact hword (s.cap 0).len
  · exact hlow (s.cap 1).dad
  · exact hhigh (s.cap 1).dad
  · exact hword (s.cap 1).len
  · rcases hzero with rfl | rfl | rfl | rfl | rfl | rfl <;> exact (or_parts_zero 8 8 16).symm

theorem readLong_common (hs : s.FieldsFit) (h : 4 ∣ addr) (hlo : 0x500 ≤ addr)
    (hhi : addr < 0x51E) :
    s.readLong addr = (s.readWord addr).setWidth 32 ||| (s.readWord (addr + 2)).setWidth 32 <<< 16 := by
  have hzero : ∀ x : BitVec 16, x.setWidth 32 = x.setWidth 32 ||| (0#16).setWidth 32 <<< 16 := by
    intro x
    rw [BitVec.setWidth_zero, BitVec.zero_shiftLeft, BitVec.or_zero]
  have hwhole : ∀ x : BitVec 32,
      x = (x.setWidth 16).setWidth 32 ||| ((x >>> 16).setWidth 16).setWidth 32 <<< 16 := by
    intro x
    rw [or_parts_low x 16 16 32, BitVec.setWidth_eq, BitVec.setWidth_eq]
  rcases quad_common h hlo hhi with rfl | rfl | rfl | rfl | rfl | rfl | rfl | rfl
  · refine Eq.trans ?_ (hzero (s.readWord 0x500))
    have hlong : s.readLong 0x500 =
        s.mastervol.setWidth 32 ||| s.ctlLeft.setWidth 32 <<< 8 |||
          s.ctlRight.setWidth 32 <<< 10 ||| s.ctlCh1bypass.setWidth 32 <<< 12 |||
          s.ctlCh3bypass.setWidth 32 <<< 13 ||| s.masteren.setWidth 32 <<< 15 := rfl
    have hword : s.readWord 0x500 =
        s.mastervol.setWidth 16 ||| s.ctlLeft.setWidth 16 <<< 8 |||
          s.ctlRight.setWidth 16 <<< 10 ||| s.ctlCh1bypass.setWidth 16 <<< 12 |||
          s.ctlCh3bypass.setWidth 16 <<< 13 ||| s.masteren.setWidth 16 <<< 15 := rfl
    simp only [hlong, hword, BitVec.setWidth_or,
      setWidth_shiftLeft_of_fits (toNat_setWidth_lt hs.ctlLeft 16) (n := 8) (by decide),
      setWidth_shiftLeft_of_fits (toNat_setWidth_lt hs.ctlRight 16) (n := 10) (by decide),
      setWidth_shiftLeft_of_fits (toNat_setWidth_lt hs.ctlCh1bypass 16) (n := 12) (by decide),
      setWidth_shiftLeft_of_fits (toNat_setWidth_lt hs.ctlCh3bypass 16) (n := 13) (by decide),
      setWidth_shiftLeft_of_fits (toNat_setWidth_lt hs.masteren 16) (n := 15) (by decide),
      BitVec.setWidth_setWidth (show ¬ (16 < 8 ∧ 16 < 32) by decide)]
  · exact hzero s.soundbias
  · refine Eq.trans ?_ (hzero (s.readWord 0x508))
    have hlong : s.readLong 0x508 =
        (s.cap 0).readControl.setWidth 32 ||| (s.cap 1).readControl.setWidth 32 <<< 8 := rfl
    have hword : s.readWord 0x508 =
        (s.cap 0).readControl.setWidth 16 ||| (s.cap 1).readControl.setWidth 16 <<< 8 := rfl
    have hfits := toNat_setWidth_lt (s.cap 1).readControl.isLt 16
    rw [hlong, hword, BitVec.setWidth_or, setWidth_shiftLeft_of_fits hfits (by decide),
      BitVec.setWidth_setWidth (by decide), BitVec.setWidth_setWidth (by decide)]
  · exact hwhole (s.cap 0).dad
  · exact hzero (s.cap 0).len
  · exact hwhole (s.cap 1).dad
  · exact hzero (s.cap 1).len
  · exact (or_parts_zero 16 16 32).symm

/-- A halfword read is the two byte reads. -/
theorem readWord_eq_bytes (hs : s.FieldsFit) (h : 2 ∣ addr) :
    s.readWord addr = (s.readByte addr).setWidth 16 ||| (s.readByte (addr + 1)).setWidth 16 <<< 8 := by
  have hblock : (addr + 1) / 16 = addr / 16 := by omega
  by_cases hch : isChannel addr
  · rw [readWord_channel hch, readByte_channel hch,
      readByte_channel ((isChannel_add hblock).mpr hch), chanNum_add hblock, reg_add hblock]
    have hreg := reg_eq addr
    exact ChannelStruct.readWord_eq (hs.channels _) (by omega) (by omega)
  · have hch' : ¬ isChannel (addr + 1) := fun h => hch ((isChannel_add hblock).mp h)
    by_cases hin : 0x500 ≤ addr ∧ addr < 0x51E
    · exact readWord_common hs h hin.1 hin.2
    · rw [readWord_outside hch (by omega), readByte_outside hch (by omega),
        readByte_outside hch' (by omega)]
      exact (or_parts_zero 8 8 16).symm

/-- A word read is the two halfword reads. -/
theorem readLong_eq_words (hs : s.FieldsFit) (h : 4 ∣ addr) :
    s.readLong addr = (s.readWord addr).setWidth 32 ||| (s.readWord (addr + 2)).setWidth 32 <<< 16 := by
  have hblock : (addr + 2) / 16 = addr / 16 := by omega
  by_cases hch : isChannel addr
  · rw [readLong_channel hch, readWord_channel hch,
      readWord_channel ((isChannel_add hblock).mpr hch), chanNum_add hblock, reg_add hblock]
    have hreg := reg_eq addr
    exact ChannelStruct.readLong_eq (hs.channels _) (by omega) (by omega)
  · have hch' : ¬ isChannel (addr + 2) := fun h => hch ((isChannel_add hblock).mp h)
    by_cases hin : 0x500 ≤ addr ∧ addr < 0x51E
    · exact readLong_common hs h hin.1 hin.2
    · rw [readLong_outside hch (by omega), readWord_outside hch (by omega),
        readWord_outside hch' (by omega)]
      exact (or_parts_zero 16 16 32).symm

end SpuStruct
end Desmume.Sound
