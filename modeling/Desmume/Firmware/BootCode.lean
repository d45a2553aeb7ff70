import Desmume.Bios.Lz10
import Desmume.Firmware.Key1
import Desmume.Library.FlatMemory

/-! The boot code in the firmware: an LZ10 stream in blocks of eight bytes, which are decrypted or
taken as they are. The bytes are used up over the ends of the blocks. -/

namespace Desmume.Firmware
open Library Bios

/-! ### Unpacking -/

/-- `T1ReadByte((u8*)curBlock, k)`. -/
def blockByte (curBlock : Block) (k : ℕ) : BitVec 8 :=
  if k < 4 then (curBlock.1 >>> (8 * k)).setWidth 8 else (curBlock.2 >>> (8 * (k - 4))).setWidth 8

def wordAt (input : ℕ → BitVec 8) (a : ℕ) : BitVec 32 :=
  BitVec.ofNat 32 (ofLeBytes (load input a 4))

/-- `memcpy(curBlock, in + a, 8)`. -/
def blockAt (input : ℕ → BitVec 8) (a : ℕ) : Block := (wordAt input a, wordAt input (a + 4))

/-- The variables of the loops. The positions that are read back are noted, each with how much was
written by then. -/
structure Unpacker where
  curBlock : Block
  xIn : ℕ
  out : List (BitVec 8)
  xOut : ℕ
  xLen : ℕ
  windowReads : List (ℕ × ℕ)

/-- What is returned, `out` if it is allocated, and the notes. -/
structure Unpacked where
  blockSize : ℕ
  out : Option (List (BitVec 8))
  windowReads : List (ℕ × ℕ)

namespace Unpacker

/-- The variables when the loops begin. -/
def start (curBlock : Block) (blockSize : ℕ) : Unpacker :=
  ⟨curBlock, 4, List.replicate blockSize 0xFF, 0, blockSize, []⟩

/-- The byte at `xOut` is written; there has to be one. -/
def put (s : Unpacker) (b : BitVec 8) : Option Unpacker :=
  if s.xOut < s.out.length then
    some { s with out := s.out.set s.xOut b, xOut := s.xOut + 1, xLen := s.xLen - 1 }
  else none

/-- A byte that was written is written once more. -/
def putWindow (s : Unpacker) (windowOffset : BitVec 32) : Option Unpacker := do
  let b ← s.out[windowOffset.toNat]?
  { s with windowReads := s.windowReads ++ [(windowOffset.toNat, s.xOut)] }.put b

/-- The loop over the length of a repetition. -/
def copyWindow : ℕ → BitVec 32 → Unpacker → Option Unpacker
  | 0, _, s => some s
  | n + 1, windowOffset, s => do
    let s ← s.putWindow windowOffset
    if s.xLen = 0 then return s else copyWindow n (windowOffset + 1) s

section Refill

-- the block at a place of the input
variable (refill : ℕ → Option Block)

/-- The next byte of the input, and the next block behind the last byte of one. -/
def next (s : Unpacker) : Option (BitVec 8 × Unpacker) :=
  let b := blockByte s.curBlock (s.xIn % 8)
  let xIn := s.xIn + 1
  if xIn % 8 = 0 then do
    let curBlock ← refill xIn
    return (b, { s with xIn, curBlock })
  else return (b, { s with xIn })

def copyToken (s : Unpacker) : Option Unpacker := do
  let (high, s) ← s.next refill
  let (low, s) ← s.next refill
  let data := high.setWidth 16 <<< 8 ||| low.setWidth 16
  let len := (data >>> 12).toNat + 3
  let offset := (data &&& 0xFFF).setWidth 32
  copyWindow len (BitVec.ofNat 32 s.xOut - offset - 1) s

def literalToken (s : Unpacker) : Option Unpacker := do
  let (b, s) ← s.next refill
  s.put b

def token (d : BitVec 8) (s : Unpacker) : Option Unpacker :=
  if d &&& 0x80 ≠ 0 then s.copyToken refill else s.literalToken refill

/-- The loop over the flags of a byte. -/
def tokens : ℕ → BitVec 8 → Unpacker → Option Unpacker
  | 0, _, s => some s
  | n + 1, d, s => do
    let s ← s.token refill d
    if s.xLen = 0 then return s else tokens n (d <<< 1) s

/-- The outer loop; it ends within `xLen` rounds. -/
def blocks : ℕ → Unpacker → Option Unpacker
  | 0, s => some s
  | fuel + 1, s =>
    if s.xLen = 0 then some s
    else do
      let (d, s) ← s.next refill
      let s ← s.tokens refill 8 d
      blocks fuel s

end Refill

end Unpacker

/-- The body of `CFIRMWARE::decrypt` and `CFIRMWARE::decompress`. -/
def unpack (refill : ℕ → Option Block) : Option Unpacked := do
  let curBlock ← refill 0
  let blockSize := (curBlock.1 >>> 8).toNat
  if blockSize = 0 then return ⟨0, none, []⟩
  else
    let s ← (Unpacker.start curBlock blockSize).blocks refill blockSize
    return ⟨blockSize, some s.out, s.windowReads⟩

namespace Cfirmware

/-- `CFIRMWARE::decrypt`, with the key buffer of `enc`. -/
def decrypt (keyBuf : KeyBuf) (input : ℕ → BitVec 8) : Option Unpacked :=
  unpack fun xIn => Firmware.decrypt keyBuf (blockAt input xIn)

/-- `CFIRMWARE::decompress`. -/
def decompress (input : ℕ → BitVec 8) : Option Unpacked := unpack fun xIn => some (blockAt input xIn)

end Cfirmware

/-! ### Blocks -/

section Blocks

theorem toNat_wordAt (input : ℕ → BitVec 8) (a : ℕ) :
    (wordAt input a).toNat = ofLeBytes (load input a 4) := by
  have hlt := ofLeBytes_lt (load input a 4)
  rw [length_load] at hlt
  rw [wordAt, BitVec.toNat_ofNat]
  exact Nat.mod_eq_of_lt hlt

theorem wordAt_byte (input : ℕ → BitVec 8) (a : ℕ) {k : ℕ} (hk : k < 4) :
    ((wordAt input a) >>> (8 * k)).setWidth 8 = input (a + k) := by
  have hvalue : ofLeBytes (load input a 4) = (input a).toNat + 256 * ((input (a + 1)).toNat +
      256 * ((input (a + 2)).toNat + 256 * ((input (a + 3)).toNat + 256 * 0))) := rfl
  have h₀ := (input a).isLt
  have h₁ := (input (a + 1)).isLt
  have h₂ := (input (a + 2)).isLt
  have h₃ := (input (a + 3)).isLt
  apply BitVec.eq_of_toNat_eq
  rw [BitVec.toNat_setWidth, BitVec.toNat_ushiftRight, toNat_wordAt, hvalue,
    Nat.shiftRight_eq_div_pow]
  match k, hk with
  | 0, _ =>
    change _ = (input a).toNat
    omega
  | 1, _ => omega
  | 2, _ => omega
  | 3, _ => omega

theorem blockByte_blockAt (input : ℕ → BitVec 8) (a : ℕ) {k : ℕ} (hk : k < 8) :
    blockByte (blockAt input a) k = input (a + k) := by
  rw [blockByte]
  split_ifs with hlow
  · exact wordAt_byte input a hlow
  · have hbyte := wordAt_byte input (a + 4) (show k - 4 < 4 by omega)
    rwa [show a + 4 + (k - 4) = a + k by omega] at hbyte

/-- A word is put together from its bytes. -/
theorem wordAt_of_bytes {input : ℕ → BitVec 8} {a : ℕ} {x : BitVec 32}
    (h : ∀ k < 4, input (a + k) = (x >>> (8 * k)).setWidth 8) : wordAt input a = x := by
  have hvalue : ofLeBytes (load input a 4) = (input (a + 0)).toNat + 256 * ((input (a + 1)).toNat +
      256 * ((input (a + 2)).toNat + 256 * ((input (a + 3)).toNat + 256 * 0))) := rfl
  have hx := x.isLt
  apply BitVec.eq_of_toNat_eq
  rw [toNat_wordAt, hvalue, h 0 (by decide), h 1 (by decide), h 2 (by decide), h 3 (by decide)]
  simp only [BitVec.toNat_setWidth, BitVec.toNat_ushiftRight, Nat.shiftRight_eq_div_pow]
  omega

/-- The input with every block decrypted. -/
def decryptedInput (keyBuf : KeyBuf) (input : ℕ → BitVec 8) : ℕ → BitVec 8 := fun a =>
  blockByte ((decrypt keyBuf (blockAt input (8 * (a / 8)))).getD (0, 0)) (a % 8)

theorem blockAt_decryptedInput (keyBuf : KeyBuf) (input : ℕ → BitVec 8) (n : ℕ) :
    some (blockAt (decryptedInput keyBuf input) (8 * n)) = decrypt keyBuf (blockAt input (8 * n)) := by
  rw [decrypt_eq, Option.some.injEq]
  have hbyte (k : ℕ) (hk : k < 8) : decryptedInput keyBuf input (8 * n + k) =
      blockByte (feistel (mix keyBuf) (keyWords keyBuf).reverse (blockAt input (8 * n))) k := by
    have hdiv : (8 * n + k) / 8 = n := by omega
    have hmod : (8 * n + k) % 8 = k := by omega
    rw [decryptedInput, hdiv, hmod, decrypt_eq, Option.getD_some]
  generalize feistel (mix keyBuf) (keyWords keyBuf).reverse (blockAt input (8 * n)) = b at hbyte
  refine Prod.ext (wordAt_of_bytes fun k hk => ?_) (wordAt_of_bytes fun k hk => ?_)
  · rw [hbyte k (by omega), blockByte, if_pos hk]
  · rw [Nat.add_assoc, hbyte (4 + k) (by omega), blockByte, if_neg (by omega),
      Nat.add_sub_cancel_left]

/-- Only the blocks at multiples of eight are looked at. -/
theorem unpack_congr {refill refill' : ℕ → Option Block} (h : ∀ n, refill (8 * n) = refill' (8 * n)) :
    unpack refill = unpack refill' := by
  have hnext (s : Unpacker) : s.next refill = s.next refill' := by
    rw [Unpacker.next, Unpacker.next]
    by_cases hend : (s.xIn + 1) % 8 = 0
    · obtain ⟨n, hn⟩ := Nat.dvd_of_mod_eq_zero hend
      rw [if_pos hend, if_pos hend, hn, h n]
    · rw [if_neg hend, if_neg hend]
  have htoken (d : BitVec 8) (s : Unpacker) : s.token refill d = s.token refill' d := by
    simp only [Unpacker.token, Unpacker.copyToken, Unpacker.literalToken, hnext]
  have htokens (n : ℕ) (d : BitVec 8) (s : Unpacker) : s.tokens refill n d = s.tokens refill' n d := by
    induction n generalizing d s with
    | zero => rfl
    | succ n ih => simp only [Unpacker.tokens, htoken, ih]
  have hblocks (fuel : ℕ) (s : Unpacker) : s.blocks refill fuel = s.blocks refill' fuel := by
    induction fuel generalizing s with
    | zero => rfl
    | succ fuel ih => simp only [Unpacker.blocks, hnext, htokens, ih]
  have hfirst : refill 0 = refill' 0 := h 0
  simp only [unpack, hfirst, hblocks]

end Blocks

/-! ### The expansion -/

section Expansion

variable {input : ℕ → BitVec 8} {size : ℕ} {out : List (BitVec 8)} {s : Unpacker}

/-- The expansion so far is written, as long as it is announced, and nothing was read back that was
not written. -/
structure Written (size : ℕ) (out : List (BitVec 8)) (s : Unpacker) : Prop where
  held : s.out = out.take size ++ List.replicate (size - out.length) 0xFF
  xOut : s.xOut = min out.length size
  xLen : s.xLen = size - out.length
  windowReads : ∀ r ∈ s.windowReads, r.1 < r.2

/-- The block of the next byte is there. -/
def Reading (input : ℕ → BitVec 8) (s : Unpacker) : Prop :=
  s.curBlock = blockAt input (8 * (s.xIn / 8))

/-- Nothing of the input is used up. -/
def SameInput (s s' : Unpacker) : Prop := s'.curBlock = s.curBlock ∧ s'.xIn = s.xIn

/-- What is behind the announced size does not matter. -/
theorem Written.extend (h : Written size out s) (hend : size ≤ out.length) {out' : List (BitVec 8)}
    (hbegins : out <+: out') : Written size out' s := by
  obtain ⟨rest, rfl⟩ := hbegins
  have hlength : (out ++ rest).length = out.length + rest.length := List.length_append
  refine ⟨?_, ?_, ?_, h.windowReads⟩
  · rw [h.held, List.take_append_of_le_length hend, Nat.sub_eq_zero_of_le hend,
      Nat.sub_eq_zero_of_le (by omega)]
  · rw [h.xOut]
    omega
  · rw [h.xLen]
    omega

theorem Written.length (h : Written size out s) (hlt : out.length < size) : s.out.length = size := by
  rw [h.held, List.length_append, List.length_take, List.length_replicate]
  omega

theorem Written.put (h : Written size out s) (hlt : out.length < size) (b : BitVec 8) :
    ∃ s', s.put b = some s' ∧ Written size (out ++ [b]) s' ∧ SameInput s s' := by
  have hxOut : s.xOut = out.length := h.xOut.trans (Nat.min_eq_left hlt.le)
  have hroom : s.xOut < s.out.length := by rw [h.length hlt, hxOut]; exact hlt
  refine ⟨_, if_pos hroom, ⟨?_, ?_, ?_, h.windowReads⟩, rfl, rfl⟩
  · obtain ⟨k, hk⟩ := Nat.exists_eq_add_of_lt hlt
    have hrest : size - out.length = k + 1 := by omega
    have hrest' : size - (out ++ [b]).length = k := by
      rw [List.length_append, List.length_singleton]
      omega
    change s.out.set s.xOut b = _
    rw [h.held, hxOut, hrest, hrest', List.take_of_length_le hlt.le, List.replicate_succ,
      List.set_append_right _ _ (Nat.le_refl _), Nat.sub_self, List.set_cons_zero,
      List.take_of_length_le (by rw [List.length_append, List.length_singleton]; omega),
      List.append_assoc]
    rfl
  · change s.xOut + 1 = _
    rw [hxOut, List.length_append, List.length_singleton]
    omega
  · change s.xLen - 1 = _
    rw [h.xLen, List.length_append, List.length_singleton]
    omega

theorem Written.putWindow (h : Written size out s) (hlt : out.length < size) (hsize : size ≤ 2 ^ 32)
    {d : ℕ} (hd : 0 < d) (hreach : d ≤ out.length) :
    ∃ s', s.putWindow (BitVec.ofNat 32 (out.length - d)) = some s' ∧
      Written size (out ++ out[out.length - d]?.toList) s' ∧ SameInput s s' := by
  have hplace : (BitVec.ofNat 32 (out.length - d)).toNat = out.length - d := by
    rw [BitVec.toNat_ofNat]
    exact Nat.mod_eq_of_lt (by omega)
  have hwritten : out.length - d < out.length := by omega
  have hbyte : s.out[out.length - d]? = some out[out.length - d] := by
    rw [h.held, List.take_of_length_le hlt.le, List.getElem?_append_left hwritten,
      List.getElem?_eq_getElem hwritten]
  have hxOut : s.xOut = out.length := h.xOut.trans (Nat.min_eq_left hlt.le)
  have hnoted : Written size out
      { s with windowReads := s.windowReads ++ [(out.length - d, s.xOut)] } := by
    refine ⟨h.held, h.xOut, h.xLen, fun r hr => ?_⟩
    rcases List.mem_append.1 hr with hr | hr
    · exact h.windowReads r hr
    · rw [List.mem_singleton.1 hr, hxOut]
      exact hwritten
  obtain ⟨s', hput, hwritten', hsame⟩ := hnoted.put hlt out[out.length - d]
  refine ⟨s', ?_, ?_, hsame⟩
  · rw [Unpacker.putWindow, hplace, hbyte]
    exact hput
  · rw [List.getElem?_eq_getElem hwritten]
    exact hwritten'

/-- A repetition, by induction on how many are left; it ends early at the announced size. -/
theorem Written.copyWindow (hsize : size ≤ 2 ^ 32) {d : ℕ} (hd : 0 < d) (n : ℕ)
    (h : Written size out s) (hlt : out.length < size) (hreach : d ≤ out.length) :
    ∃ s', Unpacker.copyWindow n (BitVec.ofNat 32 (out.length - d)) s = some s' ∧
      Written size (copyBack d n out) s' ∧ SameInput s s' := by
  induction n generalizing s out with
  | zero => exact ⟨s, rfl, h, rfl, rfl⟩
  | succ n ih =>
    obtain ⟨s₁, hput, hwritten, hsame⟩ := h.putWindow hlt hsize hd hreach
    have hlength : (out ++ out[out.length - d]?.toList).length = out.length + 1 := by
      rw [List.getElem?_eq_getElem (by omega), Option.toList_some, List.length_append,
        List.length_singleton]
    have hxLen := hwritten.xLen
    have hstep : Unpacker.copyWindow (n + 1) (BitVec.ofNat 32 (out.length - d)) s =
        if s₁.xLen = 0 then some s₁
        else Unpacker.copyWindow n (BitVec.ofNat 32 (out.length - d) + 1) s₁ := by
      rw [Unpacker.copyWindow, hput]
      rfl
    rw [hstep, copyBack]
    by_cases hend : s₁.xLen = 0
    · exact ⟨s₁, if_pos hend, hwritten.extend (by omega) (prefix_copyBack ..), hsame⟩
    · obtain ⟨s₂, hcopy, hwritten₂, hsame₂⟩ := ih hwritten (by omega) (by omega)
      have hnext : BitVec.ofNat 32 (out.length - d) + 1 =
          BitVec.ofNat 32 ((out ++ out[out.length - d]?.toList).length - d) := by
        rw [hlength, show out.length + 1 - d = out.length - d + 1 by omega, BitVec.ofNat_add]
        rfl
      rw [if_neg hend, hnext]
      exact ⟨s₂, hcopy, hwritten₂, hsame₂.1.trans hsame.1, hsame₂.2.trans hsame.2⟩

/-- The blocks as they are. -/
def plain (input : ℕ → BitVec 8) : ℕ → Option Block := fun xIn => some (blockAt input xIn)

theorem Written.of_same {s' : Unpacker} (h : Written size out s) (hout : s'.out = s.out)
    (hxOut : s'.xOut = s.xOut) (hxLen : s'.xLen = s.xLen) (hreads : s'.windowReads = s.windowReads) :
    Written size out s' :=
  ⟨hout.trans h.held, hxOut.trans h.xOut, hxLen.trans h.xLen, hreads ▸ h.windowReads⟩

/-- A byte is read whether or not a block ends with it. -/
theorem Reading.next (h : Reading input s) (hw : Written size out s) :
    ∃ s', s.next (plain input) = some (input s.xIn, s') ∧ Reading input s' ∧
      Written size out s' ∧ s'.xIn = s.xIn + 1 := by
  have hbyte : blockByte s.curBlock (s.xIn % 8) = input s.xIn := by
    rw [h, blockByte_blockAt input _ (Nat.mod_lt _ (by decide)), Nat.div_add_mod]
  rw [Unpacker.next, hbyte]
  by_cases hend : (s.xIn + 1) % 8 = 0
  · refine ⟨_, if_pos hend, ?_, hw.of_same rfl rfl rfl rfl, rfl⟩
    rw [Reading, Nat.mul_div_cancel' (Nat.dvd_of_mod_eq_zero hend)]
  · refine ⟨_, if_neg hend, ?_, hw.of_same rfl rfl rfl rfl, rfl⟩
    have hblock : (s.xIn + 1) / 8 = s.xIn / 8 := by omega
    rw [Reading, hblock]
    exact h

theorem Reading.of_same {s' : Unpacker} (h : Reading input s) (hsame : SameInput s s') :
    Reading input s' := by
  rw [Reading, hsame.1, hsame.2]
  exact h

/-- A token is taken in. -/
theorem token_written (hsize : size ≤ 2 ^ 32) (t : Lz10Token) {d : BitVec 8}
    (hflag : d.getMsbD 0 = t.isCopy) (hr : Reading input s) (hw : Written size out s)
    (hlt : out.length < size) (hbytes : load input s.xIn t.bytes.length = t.bytes)
    (hreaches : t.token.Reaches 1 out) :
    ∃ s', s.token (plain input) d = some s' ∧ Written size (t.token.expand out) s' ∧
      Reading input s' ∧ s'.xIn = s.xIn + t.bytes.length := by
  have hmask : (d &&& 0x80 ≠ 0) = (d.getMsbD 0 = true) := by
    have hall : ∀ d : BitVec 8, d &&& 0x80 ≠ 0 ↔ d.getMsbD 0 = true := by decide
    exact propext (hall d)
  rw [Unpacker.token]
  simp only [hmask, hflag]
  obtain ⟨s₁, hnext, hr₁, hw₁, hxIn₁⟩ := hr.next hw
  cases t with
  | literal b =>
    have hb : input s.xIn = b := List.singleton_inj.1 hbytes
    obtain ⟨s₂, hput, hw₂, hsame⟩ := hw₁.put hlt b
    refine ⟨s₂, ?_, hw₂, hr₁.of_same hsame, hsame.2.trans hxIn₁⟩
    rw [if_neg (by rw [Lz10Token.isCopy]; decide), Unpacker.literalToken, hnext, hb]
    exact hput
  | copy extra offset =>
    obtain ⟨s₂, hnext₂, hr₂, hw₂, hxIn₂⟩ := hr₁.next hw₁
    have hpair := List.cons_eq_cons.1
      (show input s.xIn :: [input (s.xIn + 1)] = Lz10Token.bytes (.copy extra offset) from hbytes)
    have hhigh : input s.xIn = ((extra ++ offset) >>> 8).setWidth 8 := hpair.1
    have hlow : input s₁.xIn = (extra ++ offset).setWidth 8 := by
      rw [hxIn₁]
      exact (List.cons_eq_cons.1 hpair.2).1
    have hxOut : s₂.xOut = out.length := hw₂.xOut.trans (Nat.min_eq_left hlt.le)
    have hwindow : BitVec.ofNat 32 s₂.xOut - (offset.setWidth 16).setWidth 32 - 1 =
        BitVec.ofNat 32 (out.length - (offset.toNat + 1)) := by
      have hoffset := offset.isLt
      have hreach : offset.toNat + 1 ≤ out.length := hreaches.2
      have hone : (1 : BitVec 32).toNat = 1 := rfl
      apply BitVec.eq_of_toNat_eq
      rw [hxOut]
      simp only [BitVec.toNat_sub, BitVec.toNat_ofNat, BitVec.toNat_setWidth, hone]
      omega
    obtain ⟨s₃, hcopy, hw₃, hsame⟩ := hw₂.copyWindow hsize (Nat.succ_pos offset.toNat)
      (extra.toNat + 3) hlt hreaches.2
    refine ⟨s₃, ?_, hw₃, hr₂.of_same hsame, by rw [hsame.2, hxIn₂, hxIn₁]; rfl⟩
    have hrun : s.copyToken (plain input) =
        let data := (input s.xIn).setWidth 16 <<< 8 ||| (input s₁.xIn).setWidth 16
        Unpacker.copyWindow ((data >>> 12).toNat + 3)
          (BitVec.ofNat 32 s₂.xOut - (data &&& 0xFFF).setWidth 32 - 1) s₂ := by
      rw [Unpacker.copyToken, hnext]
      simp only [Option.bind_eq_bind, Option.bind_some, hnext₂]
    rw [if_pos (show (Lz10Token.copy extra offset).isCopy = true from rfl), hrun, hhigh, hlow,
      halfword_join]
    simp only [copy_length, copy_offset, hwindow]
    exact hcopy

theorem length_lt_expand (t : Lz10Token) (h : t.token.Reaches 1 out) :
    out.length < (t.token.expand out).length := by
  cases t with
  | literal b =>
    change _ < (out ++ [b]).length
    rw [List.length_append, List.length_singleton]
    exact Nat.lt_succ_self _
  | copy extra offset =>
    have hfirst : out.length - (offset.toNat + 1) < out.length := by
      have hpos : 1 ≤ offset.toNat + 1 ∧ offset.toNat + 1 ≤ out.length := h
      omega
    have hbegins := (prefix_copyBack (offset.toNat + 1) (extra.toNat + 2)
      (out ++ out[out.length - (offset.toNat + 1)]?.toList)).length_le
    rw [List.getElem?_eq_getElem hfirst, Option.toList_some, List.length_append,
      List.length_singleton] at hbegins
    change _ < (copyBack (offset.toNat + 1) (extra.toNat + 2 + 1) out).length
    rw [copyBack, List.getElem?_eq_getElem hfirst, Option.toList_some]
    omega

theorem length_lt_lzExpand {t : Lz10Token} (ts : List (LzToken (BitVec 8)))
    (h : t.token.Reaches 1 out) : out.length < (lzExpand out (t.token :: ts)).length :=
  Nat.lt_of_lt_of_le (length_lt_expand t h) (prefix_lzExpand (t.token.expand out) ts).length_le

/-- The tokens behind a byte of flags, by induction on them. -/
theorem tokens_written (hsize : size ≤ 2 ^ 32) {n : ℕ} {d : BitVec 8} {ts : List Lz10Token}
    (hflags : ∀ i (h : i < ts.length), d.getMsbD i = ts[i].isCopy) (hr : Reading input s)
    (hw : Written size out s) (hlt : out.length < size)
    (hbytes : load input s.xIn (ts.flatMap Lz10Token.bytes).length = ts.flatMap Lz10Token.bytes)
    (hfits : LzFits 1 out (ts.map Lz10Token.token)) (hcount : ts.length ≤ n)
    (hend : ts.length = n ∨ size ≤ (lzExpand out (ts.map Lz10Token.token)).length) :
    ∃ s', s.tokens (plain input) n d = some s' ∧
      Written size (lzExpand out (ts.map Lz10Token.token)) s' ∧
      ((lzExpand out (ts.map Lz10Token.token)).length < size →
        Reading input s' ∧ s'.xIn = s.xIn + (ts.flatMap Lz10Token.bytes).length) := by
  induction ts generalizing n d s out with
  | nil =>
    obtain rfl : n = 0 := by
      rcases hend with h | h
      · exact h.symm
      · exact absurd hlt (Nat.not_lt.2 h)
    exact ⟨s, rfl, hw, fun _ => ⟨hr, rfl⟩⟩
  | cons t ts ih =>
    obtain ⟨n, rfl⟩ : ∃ k, n = k + 1 := Nat.exists_eq_succ_of_ne_zero (by
      rw [List.length_cons] at hcount
      omega)
    rw [List.flatMap_cons, load_append_iff] at hbytes
    obtain ⟨hfirst, hrest⟩ := hbytes
    obtain ⟨s₁, htoken, hw₁, hr₁, hxIn₁⟩ := token_written hsize t (hflags 0 (Nat.succ_pos _)) hr hw
      hlt hfirst hfits.1
    have hstep : s.tokens (plain input) (n + 1) d =
        if s₁.xLen = 0 then some s₁ else s₁.tokens (plain input) n (d <<< 1) := by
      rw [Unpacker.tokens, htoken]
      rfl
    have hxLen := hw₁.xLen
    rw [hstep]
    by_cases hdone : s₁.xLen = 0
    · have hfull : size ≤ (t.token.expand out).length := by omega
      have hbegins := prefix_lzExpand (t.token.expand out) (ts.map Lz10Token.token)
      refine ⟨s₁, if_pos hdone, hw₁.extend hfull hbegins, fun hless => ?_⟩
      exact absurd hless (Nat.not_lt.2 (hfull.trans hbegins.length_le))
    · have hflags' : ∀ i (h : i < ts.length), (d <<< 1).getMsbD i = ts[i].isCopy := by
        intro i hi
        rw [BitVec.getMsbD_shiftLeft]
        exact hflags (i + 1) (Nat.succ_lt_succ hi)
      rw [← hxIn₁] at hrest
      obtain ⟨s₂, htokens, hw₂, hnext⟩ := ih hflags' hr₁ hw₁ (by omega) hrest hfits.2
        (Nat.le_of_succ_le_succ hcount) (hend.imp_left Nat.succ.inj)
      refine ⟨s₂, by rw [if_neg hdone, htokens], hw₂, fun hless => ⟨(hnext hless).1, ?_⟩⟩
      rw [(hnext hless).2, hxIn₁, List.flatMap_cons, List.length_append, Nat.add_assoc]

/-- The tokens of blocks. -/
def blockTokens (bs : List Lz10Block) : List (LzToken (BitVec 8)) :=
  bs.flatMap fun block => block.tokens.map Lz10Token.token

theorem blocks_of_done {refill : ℕ → Option Block} (h : s.xLen = 0) (fuel : ℕ) :
    s.blocks refill fuel = some s := by
  cases fuel with
  | zero => rfl
  | succ fuel => exact if_pos h

/-- The outer loop, by induction on the blocks; each one lowers what is left. -/
theorem blocks_written (hsize : size ≤ 2 ^ 32) {bs : List Lz10Block}
    (hfull : ∀ block ∈ bs.dropLast, block.tokens.length = 8) (hw : Written size out s)
    (hr : out.length < size → Reading input s ∧
      load input s.xIn (bs.flatMap Lz10Block.bytes).length = bs.flatMap Lz10Block.bytes)
    (hfits : LzFits 1 out (blockTokens bs)) (henough : size ≤ (lzExpand out (blockTokens bs)).length)
    {fuel : ℕ} (hfuel : size - out.length ≤ fuel) :
    ∃ s', s.blocks (plain input) fuel = some s' ∧
      Written size (lzExpand out (blockTokens bs)) s' := by
  induction bs generalizing s out fuel with
  | nil =>
    have hxLen := hw.xLen
    have hdone : size ≤ out.length := henough
    exact ⟨s, blocks_of_done (by omega) fuel, hw⟩
  | cons block bs ih =>
    have hsplit : blockTokens (block :: bs) =
        block.tokens.map Lz10Token.token ++ blockTokens bs := List.flatMap_cons
    rw [hsplit, lzFits_append] at hfits
    rw [hsplit, lzExpand_append] at henough ⊢
    have hxLen := hw.xLen
    by_cases hdone : size ≤ out.length
    · refine ⟨s, blocks_of_done (by omega) fuel, hw.extend hdone ?_⟩
      exact (prefix_lzExpand ..).trans (prefix_lzExpand ..)
    · have hlt : out.length < size := Nat.lt_of_not_le hdone
      obtain ⟨fuel, rfl⟩ : ∃ k, fuel = k + 1 := Nat.exists_eq_succ_of_ne_zero (by omega)
      obtain ⟨hreading, hbytes⟩ := hr hlt
      rw [List.flatMap_cons, load_append_iff] at hbytes
      obtain ⟨hblock, hrest⟩ := hbytes
      have hcons : block.bytes = [block.flags] ++ block.tokens.flatMap Lz10Token.bytes := rfl
      rw [hcons, load_append_iff] at hblock
      obtain ⟨hflag, htokens⟩ := hblock
      have hflag : input s.xIn = block.flags := List.singleton_inj.1 hflag
      obtain ⟨s₁, hnext, hr₁, hw₁, hxIn₁⟩ := hreading.next hw
      rw [hflag] at hnext
      rw [List.length_singleton, ← hxIn₁] at htokens
      have hend : block.tokens.length = 8 ∨
          size ≤ (lzExpand out (block.tokens.map Lz10Token.token)).length := by
        cases bs with
        | nil => exact .inr henough
        | cons b bs => exact .inl (hfull block List.mem_cons_self)
      obtain ⟨s₂, hrun, hw₂, hread⟩ := tokens_written hsize block.flags_eq hr₁ hw₁ hlt htokens
        hfits.1 block.length_le hend
      have hgrow : out.length < (lzExpand out (block.tokens.map Lz10Token.token)).length := by
        cases htoks : block.tokens with
        | nil =>
          rw [htoks] at hend
          rcases hend with h | h
          · exact absurd h (by decide)
          · exact absurd h hdone
        | cons t ts =>
          rw [htoks] at hfits
          exact length_lt_lzExpand _ hfits.1.1
      have hstep : s.blocks (plain input) (fuel + 1) = s₂.blocks (plain input) fuel := by
        rw [Unpacker.blocks, if_neg (by omega), hnext]
        simp only [Option.bind_eq_bind, Option.bind_some, hrun]
      rw [hstep]
      refine ih (fun b hb => hfull b ?_) hw₂ (fun hless => ⟨(hread hless).1, ?_⟩) hfits.2 henough
        (by omega)
      · cases bs with
        | nil => exact absurd hb List.not_mem_nil
        | cons b' bs => exact List.mem_cons_of_mem _ hb
      · rw [(hread hless).2, hxIn₁]
        rwa [hcons, List.length_append, List.length_singleton, ← Nat.add_assoc] at hrest

end Expansion

/-! ### The end of the loops -/

section End

variable {refill : ℕ → Option Block} {s s' : Unpacker}

theorem put_xLen {b : BitVec 8} (h : s.put b = some s') : s'.xLen = s.xLen - 1 := by
  rw [Unpacker.put] at h
  split_ifs at h
  rw [← Option.some.inj h]

theorem next_xLen {b : BitVec 8} (h : s.next refill = some (b, s')) : s'.xLen = s.xLen := by
  rw [Unpacker.next] at h
  split_ifs at h
  · obtain ⟨curBlock, -, heq⟩ := Option.bind_eq_some_iff.1 h
    rw [← (Prod.mk.inj (Option.some.inj heq)).2]
  · rw [← (Prod.mk.inj (Option.some.inj h)).2]

theorem putWindow_xLen {windowOffset : BitVec 32} (h : s.putWindow windowOffset = some s') :
    s'.xLen = s.xLen - 1 := by
  obtain ⟨b, -, hput⟩ := Option.bind_eq_some_iff.1 h
  have hxLen := put_xLen hput
  exact hxLen

theorem copyWindow_xLen {n : ℕ} {windowOffset : BitVec 32}
    (h : Unpacker.copyWindow n windowOffset s = some s') : s'.xLen ≤ s.xLen - min n 1 := by
  induction n generalizing windowOffset s with
  | zero => rw [← Option.some.inj h]; exact Nat.le_refl _
  | succ n ih =>
    obtain ⟨s₁, hput, hrest⟩ := Option.bind_eq_some_iff.1 h
    have hxLen := putWindow_xLen hput
    split_ifs at hrest
    · rw [← Option.some.inj hrest]
      omega
    · have hle := ih hrest
      omega

/-- Every token writes something. -/
theorem token_xLen {d : BitVec 8} (h : s.token refill d = some s') : s'.xLen ≤ s.xLen - 1 := by
  rw [Unpacker.token] at h
  split_ifs at h
  · obtain ⟨⟨high, s₁⟩, hhigh, hrest⟩ := Option.bind_eq_some_iff.1 h
    obtain ⟨⟨low, s₂⟩, hlow, hcopy⟩ := Option.bind_eq_some_iff.1 hrest
    have hle := copyWindow_xLen hcopy
    rw [next_xLen hlow, next_xLen hhigh, Nat.min_eq_right (Nat.le_add_left 1 _)] at hle
    exact hle
  · obtain ⟨⟨b, s₁⟩, hnext, hput⟩ := Option.bind_eq_some_iff.1 h
    rw [put_xLen hput, next_xLen hnext]

theorem tokens_xLen {n : ℕ} {d : BitVec 8} (h : s.tokens refill n d = some s') :
    s'.xLen ≤ s.xLen - min n 1 := by
  induction n generalizing d s with
  | zero => rw [← Option.some.inj h]; exact Nat.le_refl _
  | succ n ih =>
    obtain ⟨s₁, htoken, hrest⟩ := Option.bind_eq_some_iff.1 h
    have hxLen := token_xLen htoken
    split_ifs at hrest
    · rw [← Option.some.inj hrest]
      omega
    · have hle := ih hrest
      omega

/-- With as many rounds as bytes are left, the outer loop runs to its end on every input. -/
theorem blocks_xLen {fuel : ℕ} (hfuel : s.xLen ≤ fuel) (h : s.blocks refill fuel = some s') :
    s'.xLen = 0 := by
  induction fuel generalizing s with
  | zero =>
    rw [← Option.some.inj h]
    exact Nat.le_zero.1 hfuel
  | succ fuel ih =>
    rw [Unpacker.blocks] at h
    split_ifs at h with hdone
    · rwa [← Option.some.inj h]
    · obtain ⟨⟨d, s₁⟩, hnext, hrest⟩ := Option.bind_eq_some_iff.1 h
      obtain ⟨s₂, htokens, hblocks⟩ := Option.bind_eq_some_iff.1 hrest
      have hless := tokens_xLen htokens
      rw [next_xLen hnext, Nat.min_eq_right (by decide)] at hless
      exact ih (by omega) hblocks

end End

/-! ### The two functions -/

section Unpacking

/-- The size in the header. -/
def announced (input : ℕ → BitVec 8) : ℕ := ofLeBytes (load input 1 3)

/-- A stream that fits is behind the header, with as much as is announced. -/
structure StreamIn (input : ℕ → BitVec 8) (stream : Lz10Stream) : Prop where
  stored : load input 4 stream.bytes.length = stream.bytes
  fits : LzFits 1 [] stream.tokens
  enough : announced input ≤ stream.expansion.length

/-- The announced size is returned, the output is the expansion, and what was read back was
written. -/
def Unpacks (r : Option Unpacked) (size : ℕ) (expansion : List (BitVec 8)) : Prop :=
  ∃ windowReads, r = some ⟨size, if size = 0 then none else some (expansion.take size), windowReads⟩ ∧
    ∀ read ∈ windowReads, read.1 < read.2

theorem blockSize_eq (input : ℕ → BitVec 8) :
    ((blockAt input 0).1 >>> 8).toNat = announced input := by
  have hvalue : ofLeBytes (load input 0 4) = (input 0).toNat + 256 * announced input := rfl
  have hlt := (input 0).isLt
  rw [blockAt, BitVec.toNat_ushiftRight, toNat_wordAt, hvalue, Nat.shiftRight_eq_div_pow]
  omega

theorem announced_lt (input : ℕ → BitVec 8) : announced input < 2 ^ 24 := by
  have hlt := ofLeBytes_lt (load input 1 3)
  rwa [length_load] at hlt

theorem decompress_unpacks {input : ℕ → BitVec 8} {stream : Lz10Stream} (h : StreamIn input stream) :
    Unpacks (Cfirmware.decompress input) (announced input) stream.expansion := by
  have hsize := announced_lt input
  have hrun : Cfirmware.decompress input =
      if announced input = 0 then some ⟨0, none, []⟩
      else ((Unpacker.start (blockAt input 0) (announced input)).blocks (plain input)
        (announced input)).bind fun s => some ⟨announced input, some s.out, s.windowReads⟩ := by
    rw [Cfirmware.decompress, unpack]
    simp only [Option.bind_eq_bind, Option.bind_some, blockSize_eq]
    rfl
  rw [hrun]
  by_cases hzero : announced input = 0
  · refine ⟨[], ?_, nofun⟩
    rw [if_pos hzero, if_pos hzero, hzero]
  · have hstart : Written (announced input) []
        (Unpacker.start (blockAt input 0) (announced input)) :=
      ⟨by rw [List.take_nil]; rfl, (Nat.zero_min _).symm, rfl, nofun⟩
    have hreading : Reading input (Unpacker.start (blockAt input 0) (announced input)) := by
      have hfirst : 8 * (4 / 8) = 0 := by decide
      change blockAt input 0 = blockAt input (8 * (4 / 8))
      rw [hfirst]
    obtain ⟨s, hblocks, hw⟩ := blocks_written (by omega) stream.full hstart
      (fun _ => ⟨hreading, h.stored⟩) h.fits h.enough (Nat.sub_le (announced input) 0)
    have hheld : s.out = stream.expansion.take (announced input) := by
      have hrest : announced input - (lzExpand [] (blockTokens stream.blocks)).length = 0 :=
        Nat.sub_eq_zero_of_le h.enough
      rw [hw.held, hrest, List.replicate_zero, List.append_nil]
      rfl
    refine ⟨s.windowReads, ?_, hw.windowReads⟩
    rw [if_neg hzero, if_neg hzero, hblocks, Option.bind_some, hheld]

theorem decrypt_eq_decompress (keyBuf : KeyBuf) (input : ℕ → BitVec 8) :
    Cfirmware.decrypt keyBuf input = Cfirmware.decompress (decryptedInput keyBuf input) :=
  unpack_congr fun n => (blockAt_decryptedInput keyBuf input n).symm

/-- Decrypting is decompressing what is decrypted; both expand the streams that fit, and their loops
end on every input. -/
theorem unpacking_correct (keyBuf : KeyBuf) (input : ℕ → BitVec 8) (stream : Lz10Stream) :
    Cfirmware.decrypt keyBuf input = Cfirmware.decompress (decryptedInput keyBuf input) ∧
      (StreamIn input stream →
        Unpacks (Cfirmware.decompress input) (announced input) stream.expansion) ∧
      (StreamIn (decryptedInput keyBuf input) stream →
        Unpacks (Cfirmware.decrypt keyBuf input) (announced (decryptedInput keyBuf input))
          stream.expansion) ∧
      ∀ (refill : ℕ → Option Block) (fuel : ℕ) (s s' : Unpacker), s.xLen ≤ fuel →
        s.blocks refill fuel = some s' → s'.xLen = 0 := by
  refine ⟨decrypt_eq_decompress keyBuf input, decompress_unpacks, fun h => ?_,
    fun _ _ _ _ => blocks_xLen⟩
  rw [decrypt_eq_decompress]
  exact decompress_unpacks h

/-- A byte, and three more like it. -/
def bootStream : Lz10Stream where
  blocks := [
    { flags := 0x40
      tokens := [.literal 7, .copy 0 0]
      length_le := by decide
      flags_eq := by decide }]
  full := by decide

def bootInput : ℕ → BitVec 8 := store (fun _ => 0) 0 ([0x10, 4, 0, 0] ++ bootStream.bytes)

theorem bootInput_unpacks : Unpacks (Cfirmware.decompress bootInput) 4 [7, 7, 7, 7] :=
  (unpacking_correct zeroKey.keyBuf bootInput bootStream).2.1 ⟨by decide, by decide, by decide⟩

end Unpacking

end Desmume.Firmware
