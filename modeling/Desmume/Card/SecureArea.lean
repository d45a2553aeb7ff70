import Desmume.Firmware.Key1
import Mathlib.Tactic.IntervalCases

/-! The secure area of a cartridge. `decrypt.cpp` has a cipher of its own, which is shown to be that of
`_KEY1`, and the functions on the area undo each other. -/

namespace Desmume.Card.SecureArea
open Library Firmware

section Cipher

variable (magic : KeyBuf)

def lookup (v : BitVec 32) : Option (BitVec 32) := do
  let a := (v >>> 24) &&& 0xFF
  let b := (v >>> 16) &&& 0xFF
  let c := (v >>> 8) &&& 0xFF
  let d := (v >>> 0) &&& 0xFF
  let a ← magic[a.toNat + 18 + 0]?
  let b ← magic[b.toNat + 18 + 256]?
  let c ← magic[c.toNat + 18 + 512]?
  let d ← magic[d.toNat + 18 + 768]?
  return d + (c ^^^ (b + a))

/-- The body of the loops of `encrypt` and `decrypt`, on `a` and `b`. -/
def cryptRound (s : BitVec 32 × BitVec 32) (i : ℕ) : Option (BitVec 32 × BitVec 32) := do
  let (a, b) := s
  let c := (← magic[i]?) ^^^ a
  return (b ^^^ (← lookup magic c), c)

/-- `encrypt`: the new values of `*arg1` and `*arg2`. -/
def encrypt (arg1 arg2 : BitVec 32) : Option (BitVec 32 × BitVec 32) := do
  let (a, b) ← (List.range 16).foldlM (cryptRound magic) (arg1, arg2)
  let arg2 := a ^^^ (← magic[16]?)
  let arg1 := b ^^^ (← magic[17]?)
  return (arg1, arg2)

def decrypt (arg1 arg2 : BitVec 32) : Option (BitVec 32 × BitVec 32) := do
  let (a, b) ← ((List.range 16).map (17 - ·)).foldlM (cryptRound magic) (arg1, arg2)
  let arg1 := b ^^^ (← magic[0]?)
  let arg2 := a ^^^ (← magic[1]?)
  return (arg1, arg2)

end Cipher

/-- `card_hash` and `arg2`. -/
structure CardCipher where
  cardHash : KeyBuf
  arg2 : Vector (BitVec 32) 3

/-- Byte `k` of `(u8*)a`. -/
def argByte (a : Vector (BitVec 32) 3) (k : ℕ) : Option (BitVec 8) := do
  return ((← a[k / 4]?) >>> (8 * (k % 4))).setWidth 8

/-- `magic[j] ^= r3` with the bytes that are gathered for it. -/
def xorGathered (a : Vector (BitVec 32) 3) (magic : KeyBuf) (j : ℕ) : Option KeyBuf := do
  let r3 : BitVec 32 ← (List.range 4).foldlM
    (fun r3 i => do return (r3 <<< 8) ||| (← argByte a ((j * 4 + i) &&& 7)).setWidth 32) 0
  let old ← magic[j]?
  putEntry magic (j, old ^^^ r3)

/-- `encrypt(magic,&tmp1,&tmp2); magic[i+base+0] = tmp1; magic[i+base+1] = tmp2` where `i` is `2 * n`. -/
def fillPair (base : ℕ) (s : (BitVec 32 × BitVec 32) × KeyBuf) (n : ℕ) :
    Option ((BitVec 32 × BitVec 32) × KeyBuf) := do
  let tmp ← encrypt s.2 s.1.1 s.1.2
  let magic ← putAll s.2 [(2 * n + base + 0, tmp.1), (2 * n + base + 1, tmp.2)]
  return (tmp, magic)

/-- `update_hashtable(magic, (u8*)a)`. -/
def updateHashtable (magic : KeyBuf) (a : Vector (BitVec 32) 3) : Option KeyBuf := do
  let magic ← (List.range 18).foldlM (xorGathered a) magic
  let s ← (List.range (18 / 2)).foldlM (fillPair 0) ((0, 0), magic)
  let s ← (List.range (0x400 / 2)).foldlM (fillPair 18) s
  return s.2

/-- `encrypt(magic, a+j+1, a+j)`. -/
def encryptArg (s : CardCipher) (j : ℕ) : Option CardCipher := do
  let code ← encrypt s.cardHash (← s.arg2[j + 1]?) (← s.arg2[j]?)
  let arg2 ← putAll s.arg2 [(j, code.2), (j + 1, code.1)]
  return { s with arg2 }

/-- `init2(card_hash, arg2)`. -/
def init2 (s : CardCipher) : Option CardCipher := do
  let s ← encryptArg s 1
  let s ← encryptArg s 0
  let cardHash ← updateHashtable s.cardHash s.arg2
  return { s with cardHash }

theorem size_code (gamecode : BitVec 32) : #[gamecode, gamecode >>> 1, gamecode <<< 1].size = 3 := rfl

/-- `init1`, where `arm7_key` is read as bytes. -/
def init1 (arm7Key : ℕ → BitVec 8) (s : CardCipher) (gamecode : BitVec 32) : Option CardCipher := do
  let cardHash ← (List.range (1024 + 18)).foldlM (Key1.copyWord arm7Key) s.cardHash
  let s ← init2 ⟨cardHash, ⟨#[gamecode, gamecode >>> 1, gamecode <<< 1], size_code gamecode⟩⟩
  init2 s

/-- `arg2[1] <<= 1; arg2[2] >>= 1`. -/
def shiftArg (x : BitVec 32) (k : ℕ) : BitVec 32 :=
  if k = 1 then x <<< 1 else if k = 2 then x >>> 1 else x

/-- `arg2[1] <<= 1; arg2[2] >>= 1; init2(card_hash, arg2)`. -/
def init3 (s : CardCipher) : Option CardCipher :=
  init2 { s with arg2 := Vector.ofFn fun k => shiftArg (s.arg2.get k) k }

/-- The 0x800 bytes at `data`, as pairs `p[0]` and `p[1]`. -/
abbrev Area := Vector Block 0x100

def MAGIC30 : BitVec 32 := 0x72636E65

def MAGIC34 : BitVec 32 := 0x6A624F79

/-- `decrypt(card_hash, p+1, p)`. -/
def decryptBlock (s : CardCipher) (p : Block) : Option Block := do
  return (← decrypt s.cardHash p.2 p.1).swap

/-- `encrypt(card_hash, p+1, p)`. -/
def encryptBlock (s : CardCipher) (p : Block) : Option Block := do
  return (← encrypt s.cardHash p.2 p.1).swap

section Arm9

variable (arm7Key : ℕ → BitVec 8) (s : CardCipher) (gamecode : BitVec 32) (data : Area)

def decryptArm9 : Option (Bool × Area × CardCipher) := do
  let s ← init1 arm7Key s gamecode
  let data ← modifyEntry (decryptBlock s) data 0
  let s ← init3 s
  let data ← modifyEntry (decryptBlock s) data 0
  if data[0] ≠ (MAGIC30, MAGIC34) then return (false, data, s)
  let data ← putEntry data (0, (0xE7FFDEFF, 0xE7FFDEFF))
  let data ← (List.range ((0x800 - 8) / 8)).foldlM
    (fun data n => modifyEntry (decryptBlock s) data (1 + n)) data
  return (true, data, s)

def encryptArm9 : Option (Area × CardCipher) := do
  if data[0] ≠ (0xE7FFDEFF, 0xE7FFDEFF) then return (data, s)
  let s ← init1 arm7Key s gamecode
  let s ← init3 s
  let data ← (List.range ((0x800 - 8) / 8)).foldlM
    (fun data n => modifyEntry (encryptBlock s) data (1 + n)) data
  let data ← putEntry data (0, (MAGIC30, MAGIC34))
  let data ← modifyEntry (encryptBlock s) data 0
  let s ← init1 arm7Key s gamecode
  let data ← modifyEntry (encryptBlock s) data 0
  return (data, s)

end Arm9

inductive RomType where
  | homebrew | multiboot | ndsdumped | encrsecure | maskrom | invalid
  deriving DecidableEq

/-- The number of a `ROMTYPE_`. -/
def RomType.code : RomType → ℕ
  | .homebrew => 0
  | .multiboot => 1
  | .ndsdumped => 2
  | .encrsecure => 3
  | .maskrom => 4
  | .invalid => 5

structure Header where
  gamecode : BitVec 32
  unitcode : BitVec 8
  arm9RomOffset : BitVec 32

def detectRomType (header : Header) (secure : Area) : RomType :=
  let data := secure[0].2 ++ secure[0].1
  if header.unitcode > 3 then .invalid
  else if header.arm9RomOffset < 0x4000 then .homebrew
  else if data = 0x0000000000000000 then .multiboot
  else if data = 0xE7FFDEFFE7FFDEFF then .ndsdumped
  else if data = 0xA5C470B9014A191A then .ndsdumped
  else .encrsecure

section SecureArea

variable (arm7Key : ℕ → BitVec 8) (s : CardCipher) (header : Header) (secure : Area)

def decryptSecureArea : Option (Bool × Area × CardCipher) :=
  let romType := detectRomType header secure
  if romType = .invalid then some (false, secure, s)
  else if romType = .ndsdumped then some (true, secure, s)
  else if RomType.encrsecure.code ≤ romType.code then
    decryptArm9 arm7Key s header.gamecode secure
  else some (true, secure, s)

def encryptSecureArea : Option (Bool × Area × CardCipher) := do
  let romType := detectRomType header secure
  if romType = .invalid then return (false, secure, s)
  if romType = .ndsdumped then
    let (secure, s) ← encryptArm9 arm7Key s header.gamecode secure
    return (true, secure, s)
  return (true, secure, s)

end SecureArea

/-! ### The cipher is that of `_KEY1` -/

section Agreement

theorem lookup_eq (magic : KeyBuf) (v : BitVec 32) : lookup magic v = mixWord magic v := by
  have hindex (base : ℕ) (hbase : base ≤ 0xC48) (s : ℕ) :
      dwnum (BitVec.ofNat 32 base + (((v >>> s) &&& 0xFF) <<< 2)) =
        ((v >>> s) &&& 0xFF).toNat + base / 4 := by
    have hbyte : ((v >>> s) &&& 0xFF).toNat ≤ 0xFF := by
      rw [BitVec.toNat_and]
      exact Nat.and_le_right
    generalize (v >>> s) &&& 0xFF = b at hbyte ⊢
    rw [dwnum, BitVec.toNat_ushiftRight, BitVec.toNat_add, BitVec.toNat_shiftLeft, Nat.shiftLeft_eq,
      Nat.shiftRight_eq_div_pow, BitVec.toNat_ofNat]
    omega
  have h₀ : dwnum (0x048 + _) = _ := hindex 0x048 (by decide) 24
  have h₁ : dwnum (0x448 + _) = _ := hindex 0x448 (by decide) 16
  have h₂ : dwnum (0x848 + _) = _ := hindex 0x848 (by decide) 8
  have h₃ : dwnum (0xC48 + _) = _ := hindex 0xC48 (by decide) 0
  rw [mixWord, tableWord, tableWord, tableWord, tableWord, h₀, h₁, h₂, h₃]
  rfl

theorem cryptRound_eq (magic : KeyBuf) (s : BitVec 32 × BitVec 32) (i : ℕ) :
    cryptRound magic s i = (cipherRound magic s.swap i).map Prod.swap := by
  rw [cryptRound, cipherRound]
  simp only [lookup_eq]
  cases magic[i]? with
  | none => rfl
  | some k =>
    change (mixWord magic (k ^^^ s.1)).bind _ = ((mixWord magic (k ^^^ s.1)).bind _).map Prod.swap
    cases mixWord magic (k ^^^ s.1) <;> rfl

theorem foldlM_cryptRound (magic : KeyBuf) (is : List ℕ) (s : BitVec 32 × BitVec 32) :
    is.foldlM (cryptRound magic) s = (is.foldlM (cipherRound magic) s.swap).map Prod.swap := by
  induction is generalizing s with
  | nil => rfl
  | cons i is ih =>
    rw [List.foldlM_cons, List.foldlM_cons, cryptRound_eq]
    cases cipherRound magic s.swap i with
    | none => rfl
    | some t => exact ih t.swap

theorem encrypt_eq (magic : KeyBuf) (arg1 arg2 : BitVec 32) :
    encrypt magic arg1 arg2 = (Firmware.encrypt magic (arg2, arg1)).map Prod.swap := by
  have hlow : magic[dwnum 0x40]? = magic[16]? := rfl
  have hhigh : magic[dwnum 0x44]? = magic[17]? := rfl
  have h₀ := getElem?_keyWord magic (show 16 < 0x412 by decide)
  have h₁ := getElem?_keyWord magic (show 17 < 0x412 by decide)
  rw [encrypt, Firmware.encrypt, foldlM_cryptRound, hlow, hhigh, h₀, h₁]
  cases hs : List.foldlM (cipherRound magic) (arg2, arg1) (List.range 16) with
  | none => simp [hs]
  | some s => simp [hs]

theorem decrypt_eq (magic : KeyBuf) (arg1 arg2 : BitVec 32) :
    decrypt magic arg1 arg2 = (Firmware.decrypt magic (arg2, arg1)).map Prod.swap := by
  have hlow : magic[dwnum 0x00]? = magic[0]? := rfl
  have hhigh : magic[dwnum 0x04]? = magic[1]? := rfl
  have h₀ := getElem?_keyWord magic (show 0 < 0x412 by decide)
  have h₁ := getElem?_keyWord magic (show 1 < 0x412 by decide)
  rw [decrypt, Firmware.decrypt, foldlM_cryptRound, hlow, hhigh, h₀, h₁]
  cases hs : List.foldlM (cipherRound magic) (arg2, arg1) ((List.range 16).map (17 - ·)) with
  | none => simp [hs]
  | some s => simp [hs]

theorem encryptBlock_eq (s : CardCipher) (p : Block) :
    encryptBlock s p = Firmware.encrypt s.cardHash p := by
  rw [encryptBlock, encrypt_eq]
  cases Firmware.encrypt s.cardHash p <;> rfl

theorem decryptBlock_eq (s : CardCipher) (p : Block) :
    decryptBlock s p = Firmware.decrypt s.cardHash p := by
  rw [decryptBlock, decrypt_eq]
  cases Firmware.decrypt s.cardHash p <;> rfl

/-- The bytes are gathered in the reversed order. -/
theorem gathered_eq (x : BitVec 32) :
    (((((0 : BitVec 32) <<< 8 ||| ((x >>> 0).setWidth 8).setWidth 32) <<< 8 |||
      ((x >>> 8).setWidth 8).setWidth 32) <<< 8 ||| ((x >>> 16).setWidth 8).setWidth 32) <<< 8 |||
        ((x >>> 24).setWidth 8).setWidth 32) = bswap32 x := by
  apply BitVec.eq_of_getLsbD_eq
  intro i hi
  rw [bswap32]
  interval_cases i <;> simp

theorem xorGathered_eq (a : Vector (BitVec 32) 3) (magic : KeyBuf) {j : ℕ} (hj : j < 18) :
    xorGathered a magic j = Key1.xorKeyCode a 8 magic j := by
  have hq : j % 2 < 3 := by omega
  have hcode : dwnum (BitVec.ofNat 32 (4 * j) % BitVec.setWidth 32 (8 : BitVec 8)) = j % 2 := by
    rw [dwnum, BitVec.toNat_ushiftRight, BitVec.toNat_umod, Nat.shiftRight_eq_div_pow,
      BitVec.toNat_ofNat]
    change _ % 8 / _ = _
    omega
  have hword : dwnum (BitVec.ofNat 32 (4 * j)) = j := by
    rw [dwnum, BitVec.toNat_ushiftRight, BitVec.toNat_ofNat, Nat.shiftRight_eq_div_pow]
    omega
  have hbyte (i : ℕ) (hi : i < 4) :
      argByte a ((j * 4 + i) &&& 7) = some ((a[j % 2] >>> (8 * i)).setWidth 8) := by
    have hmod : (j * 4 + i) &&& 7 = (j * 4 + i) % 8 := Nat.and_two_pow_sub_one_eq_mod _ 3
    have hdiv : (j * 4 + i) % 8 / 4 = j % 2 := by omega
    have hrem : (j * 4 + i) % 8 % 4 = i := by omega
    rw [argByte, hmod, hdiv, hrem, Vector.getElem?_eq_getElem hq]
    rfl
  have hr3 : (List.range 4).foldlM (fun (r3 : BitVec 32) i => do
      return (r3 <<< 8) ||| (← argByte a ((j * 4 + i) &&& 7)).setWidth 32) 0 =
        some (bswap32 a[j % 2]) := by
    have hfirst : argByte a (j * 4 &&& 7) = _ := hbyte 0 (by decide)
    rw [← gathered_eq]
    simp [List.range_succ, hbyte, hfirst]
  rw [Key1.xorKeyCode, xorGathered, hr3, hcode, hword, Vector.getElem?_eq_getElem hq]
  rfl

/-- The global state as the object that has the same words. -/
def CardCipher.key (s : CardCipher) : Key1 := ⟨s.cardHash, s.arg2⟩

theorem encryptArg_eq (s : CardCipher) {j : ℕ} (hj : j < 2) :
    (encryptArg s j).map CardCipher.key = s.key.encryptKeyCode j := by
  have h₀ : s.arg2[j]? = some s.arg2[j] := Vector.getElem?_eq_getElem (by omega)
  have h₁ : s.arg2[j + 1]? = some s.arg2[j + 1] := Vector.getElem?_eq_getElem (by omega)
  obtain ⟨c, hc⟩ := exists_encrypt s.cardHash (s.arg2[j], s.arg2[j + 1])
  have henc : encrypt s.cardHash s.arg2[j + 1] s.arg2[j] = some c.swap := by
    rw [encrypt_eq, hc]
    rfl
  rw [encryptArg, Key1.encryptKeyCode]
  simp only [CardCipher.key, h₀, h₁, Option.bind_eq_bind, Option.bind_some, henc, hc]
  change Option.map _ (Option.bind (putAll s.arg2 [(j, c.1), (j + 1, c.2)]) _) = _
  cases putAll s.arg2 [(j, c.1), (j + 1, c.2)] <;> rfl

theorem fillPair_eq {base n : ℕ} (hbase : base ≤ 18) (heven : base % 2 = 0) (hn : n < 0x200)
    (tmp : Block) (magic : KeyBuf) :
    fillPair base (tmp.swap, magic) n =
      (Key1.fillBlock (tmp, magic) (base / 2 + n)).map fun s => (s.1.swap, s.2) := by
  have hlow : dwnum (BitVec.ofNat 32 (8 * (base / 2 + n))) = 2 * n + base + 0 := by
    rw [dwnum, BitVec.toNat_ushiftRight, BitVec.toNat_ofNat, Nat.shiftRight_eq_div_pow]
    omega
  have hhigh : dwnum (BitVec.ofNat 32 (8 * (base / 2 + n)) + 4) = 2 * n + base + 1 := by
    rw [dwnum, BitVec.toNat_ushiftRight, BitVec.toNat_add, BitVec.toNat_ofNat,
      Nat.shiftRight_eq_div_pow]
    change (_ + 4) % _ / _ = _
    omega
  obtain ⟨c, hc⟩ := exists_encrypt magic tmp
  have henc : encrypt magic tmp.swap.1 tmp.swap.2 = some c.swap := by
    rw [encrypt_eq]
    change (Firmware.encrypt magic tmp).map Prod.swap = _
    rw [hc]
    rfl
  simp only [fillPair, Key1.fillBlock, henc, hc, hlow, hhigh, Option.bind_eq_bind, Option.bind_some]
  change Option.bind (putAll magic [(2 * n + base + 0, c.2), (2 * n + base + 1, c.1)]) _ = _
  cases putAll magic [(2 * n + base + 0, c.2), (2 * n + base + 1, c.1)] <;> rfl

theorem foldlM_fillPair {base k : ℕ} (hbase : base ≤ 18) (heven : base % 2 = 0) (hk : k ≤ 0x200)
    (tmp : Block) (magic : KeyBuf) :
    (List.range k).foldlM (fillPair base) (tmp.swap, magic) =
      (((List.range k).map (base / 2 + ·)).foldlM Key1.fillBlock (tmp, magic)).map
        fun s => (s.1.swap, s.2) := by
  have hall : ∀ is : List ℕ, (∀ i ∈ is, i < 0x200) → ∀ (tmp : Block) (magic : KeyBuf),
      is.foldlM (fillPair base) (tmp.swap, magic) =
        ((is.map (base / 2 + ·)).foldlM Key1.fillBlock (tmp, magic)).map fun s => (s.1.swap, s.2) := by
    intro is
    induction is with
    | nil => exact fun _ _ _ => rfl
    | cons i is ih =>
      intro his tmp magic
      rw [List.map_cons, List.foldlM_cons, List.foldlM_cons,
        fillPair_eq hbase heven (his i List.mem_cons_self)]
      cases Key1.fillBlock (tmp, magic) (base / 2 + i) with
      | none => rfl
      | some s => exact ih (fun j hj => his j (List.mem_cons_of_mem _ hj)) s.1 s.2
  refine hall _ (fun i hi => ?_) tmp magic
  have := List.mem_range.mp hi
  omega

/-- The two loops of `update_hashtable` are the one of `applyKeycode`. -/
theorem updateHashtable_eq (magic : KeyBuf) (a : Vector (BitVec 32) 3) :
    updateHashtable magic a =
      (((List.range (0x44 / 4 + 1)).foldlM (Key1.xorKeyCode a 8) magic).bind fun magic =>
        ((List.range (0x1040 / 8 + 1)).foldlM Key1.fillBlock ((0, 0), magic)).map Prod.snd) := by
  have hxor : (List.range 18).foldlM (xorGathered a) magic =
      (List.range (0x44 / 4 + 1)).foldlM (Key1.xorKeyCode a 8) magic :=
    foldlM_congr (fun j hj magic => xorGathered_eq a magic (List.mem_range.mp hj)) magic
  have hrange : List.range (0x1040 / 8 + 1) =
      (List.range (18 / 2)).map (0 / 2 + ·) ++ (List.range (0x400 / 2)).map (18 / 2 + ·) := by
    have hsum : 0x1040 / 8 + 1 = 18 / 2 + 0x400 / 2 := rfl
    have hzero : (List.range (18 / 2)).map (0 / 2 + ·) = List.range (18 / 2) := rfl
    rw [hsum, hzero, List.range_add]
  have hfirst (magic : KeyBuf) : (List.range (18 / 2)).foldlM (fillPair 0) ((0, 0), magic) = _ :=
    foldlM_fillPair (show 0 ≤ 18 by decide) (Nat.zero_mod 2) (show 18 / 2 ≤ 0x200 by omega) (0, 0) magic
  have hsecond (s : Block × KeyBuf) := foldlM_fillPair (show 18 ≤ 18 from le_rfl) (show 18 % 2 = 0 by omega)
    (show 0x400 / 2 ≤ 0x200 by omega) s.1 s.2
  rw [updateHashtable, hxor, hrange]
  generalize List.range (18 / 2) = first at hfirst ⊢
  generalize List.range (0x400 / 2) = second at hsecond ⊢
  refine congrArg (Option.bind _) (funext fun magic => ?_)
  rw [hfirst, List.foldlM_append]
  cases (first.map (0 / 2 + ·)).foldlM Key1.fillBlock ((0, 0), magic) with
  | none => rfl
  | some s =>
    simp only [Option.map_some, Option.bind_eq_bind, Option.bind_some, hsecond]
    cases (second.map (18 / 2 + ·)).foldlM Key1.fillBlock s <;> rfl

theorem init2_eq (s : CardCipher) : (init2 s).map CardCipher.key = s.key.applyKeycode 8 := by
  rw [Key1.applyKeycode, init2, ← encryptArg_eq s (by decide)]
  cases encryptArg s 1 with
  | none => rfl
  | some s₁ =>
    simp only [Option.map_some, Option.bind_eq_bind, Option.bind_some]
    rw [← encryptArg_eq s₁ (by decide)]
    cases encryptArg s₁ 0 with
    | none => rfl
    | some s₂ =>
      simp only [Option.map_some, Option.bind_some, updateHashtable_eq]
      generalize List.range (0x44 / 4 + 1) = xors
      generalize List.range (0x1040 / 8 + 1) = blocks
      change _ = Option.bind (xors.foldlM (Key1.xorKeyCode s₂.arg2 8) s₂.cardHash) _
      cases xors.foldlM (Key1.xorKeyCode s₂.arg2 8) s₂.cardHash with
      | none => rfl
      | some magic =>
        simp only [Option.bind_some]
        cases blocks.foldlM Key1.fillBlock ((0, 0), magic) <;> rfl

/-- The table of the key, as words. -/
def tableWords (arm7Key : ℕ → BitVec 8) : KeyBuf := Vector.ofFn fun i =>
  BitVec.ofNat 32 (ofLeBytes ((List.range 4).map fun k => arm7Key (4 * i.val + k)))

theorem copyWords_eq (arm7Key : ℕ → BitVec 8) (keyBuf : KeyBuf) :
    (List.range 0x412).foldlM (Key1.copyWord arm7Key) keyBuf = some (tableWords arm7Key) :=
  foldlM_putEntry (fun i =>
    BitVec.ofNat 32 (ofLeBytes ((List.range 4).map fun k => arm7Key (4 * i + k)))) keyBuf

variable (arm7Key : ℕ → BitVec 8) (gamecode : BitVec 32)

theorem exists_init2 (s : CardCipher) : ∃ s', init2 s = some s' := by
  obtain ⟨key, hkey⟩ := exists_applyKeycode s.key (Or.inl rfl)
  rw [← init2_eq] at hkey
  obtain ⟨s', hs', -⟩ := Option.map_eq_some_iff.mp hkey
  exact ⟨s', hs'⟩

/-- `init1` does not depend on what was there before. -/
theorem exists_init1 : ∃ s', ∀ s, init1 arm7Key s gamecode = some s' := by
  obtain ⟨s₁, h₁⟩ := exists_init2 ⟨tableWords arm7Key, #v[gamecode, gamecode >>> 1, gamecode <<< 1]⟩
  obtain ⟨s₂, h₂⟩ := exists_init2 s₁
  refine ⟨s₂, fun s => ?_⟩
  rw [init1]
  change Option.bind ((List.range 0x412).foldlM (Key1.copyWord arm7Key) s.cardHash) _ = _
  rw [copyWords_eq, Option.bind_some, h₁]
  exact h₂

theorem init_eq (key : Key1) (s : CardCipher) {s₂ : CardCipher}
    (h₂ : init1 arm7Key s gamecode = some s₂) :
    (key.init arm7Key gamecode 2 8).map Key1.keyBuf = some s₂.cardHash ∧
      key.init arm7Key gamecode 3 8 = (init3 s₂).map CardCipher.key := by
  rw [init1] at h₂
  change Option.bind ((List.range 0x412).foldlM (Key1.copyWord arm7Key) s.cardHash) _ = _ at h₂
  rw [copyWords_eq, Option.bind_some] at h₂
  obtain ⟨s₁, hs₁, hs₂⟩ := Option.bind_eq_some_iff.mp h₂
  have hfirst := init2_eq ⟨tableWords arm7Key, #v[gamecode, gamecode >>> 1, gamecode <<< 1]⟩
  have hsecond := init2_eq s₁
  rw [hs₁] at hfirst
  rw [hs₂] at hsecond
  -- Both levels run the same two applications and then shift the code.
  have hinit (level : BitVec 8) (hlevel : 2 ≤ level) : key.init arm7Key gamecode level 8 =
      Key1.applyFrom ⟨s₂.cardHash, #v[s₂.arg2[0], s₂.arg2[1] <<< 1, s₂.arg2[2] >>> 1]⟩ 3 level 8 := by
    have hone : (1 : BitVec 8) ≤ level := BitVec.le_trans (by decide) hlevel
    rw [Key1.init]
    change Option.bind ((List.range 0x412).foldlM (Key1.copyWord arm7Key) key.keyBuf) _ = _
    rw [copyWords_eq, Option.bind_some]
    change Option.bind (Key1.applyFrom ⟨tableWords arm7Key, _⟩ 1 level 8)
      (fun key => Option.bind (key.applyFrom 2 level 8) _) = _
    rw [Key1.applyFrom, if_pos hone]
    change Option.bind (Key1.applyKeycode (CardCipher.key
      ⟨tableWords arm7Key, #v[gamecode, gamecode >>> 1, gamecode <<< 1]⟩) 8) _ = _
    rw [← hfirst, Option.map_some, Option.bind_some, Key1.applyFrom, if_pos hlevel, ← hsecond]
    rfl
  refine ⟨?_, ?_⟩
  · rw [hinit 2 (BitVec.le_refl 2), Key1.applyFrom, if_neg (by decide)]
    rfl
  · rw [hinit 3 (by decide), Key1.applyFrom, if_pos (by decide), init3, init2_eq]
    rfl

end Agreement

/-- `decrypt.cpp` and `_KEY1` are one cipher: with one table and game code, whatever was there before,
`init1` leaves the words of level 2 and the code that is shifted behind it leads to those of level 3,
and with the same words both pairs of functions bring the same blocks. -/
theorem cipher_is_key1 (arm7Key : ℕ → BitVec 8) (gamecode : BitVec 32) (key : Key1) (s : CardCipher) :
    (∃ s₂ s₃, init1 arm7Key s gamecode = some s₂ ∧ init3 s₂ = some s₃ ∧
      (key.init arm7Key gamecode 2 8).map Key1.keyBuf = some s₂.cardHash ∧
      key.init arm7Key gamecode 3 8 = some ⟨s₃.cardHash, s₃.arg2⟩) ∧
      ∀ (magic : KeyBuf) (arg1 arg2 : BitVec 32),
        encrypt magic arg1 arg2 = (Firmware.encrypt magic (arg2, arg1)).map Prod.swap ∧
          decrypt magic arg1 arg2 = (Firmware.decrypt magic (arg2, arg1)).map Prod.swap := by
  obtain ⟨s₂, h₂⟩ := exists_init1 arm7Key gamecode
  obtain ⟨s₃, h₃⟩ : ∃ s₃, init3 s₂ = some s₃ := exists_init2 _
  obtain ⟨hlevel2, hlevel3⟩ := init_eq arm7Key gamecode key s (h₂ s)
  rw [h₃] at hlevel3
  refine ⟨⟨s₂, s₃, h₂ s, h₃, hlevel2, hlevel3⟩, fun magic arg1 arg2 => ?_⟩
  exact ⟨encrypt_eq magic arg1 arg2, decrypt_eq magic arg1 arg2⟩

/-! ### The area -/

section Area

/-- The block that `encrypt` brings. -/
def enciphered (s : CardCipher) (p : Block) : Block := feistel (mix s.cardHash) (keyWords s.cardHash) p

def deciphered (s : CardCipher) (p : Block) : Block :=
  feistel (mix s.cardHash) (keyWords s.cardHash).reverse p

theorem encryptBlock_some (s : CardCipher) (p : Block) : encryptBlock s p = some (enciphered s p) := by
  rw [encryptBlock_eq, Firmware.encrypt_eq]
  rfl

theorem decryptBlock_some (s : CardCipher) (p : Block) : decryptBlock s p = some (deciphered s p) := by
  rw [decryptBlock_eq, Firmware.decrypt_eq]
  rfl

@[simp] theorem deciphered_enciphered (s : CardCipher) (p : Block) : deciphered s (enciphered s p) = p := by
  have hback := decrypt_encrypt s.cardHash p
  rw [Firmware.encrypt_eq, Option.bind_some, Firmware.decrypt_eq] at hback
  exact Option.some.inj hback

@[simp] theorem enciphered_deciphered (s : CardCipher) (p : Block) : enciphered s (deciphered s p) = p := by
  have hback := encrypt_decrypt s.cardHash p
  rw [Firmware.decrypt_eq, Option.bind_some, Firmware.encrypt_eq] at hback
  exact Option.some.inj hback

/-- The words at the start of an area that is not encrypted. -/
def mark : Block := (0xE7FFDEFF, 0xE7FFDEFF)

/-- The first block is replaced and the others are changed. -/
def overArea (first : Block) (f : Block → Block) (data : Area) : Area :=
  Vector.ofFn fun i => if i.val = 0 then first else f data[i]

theorem overArea_zero (first : Block) (f : Block → Block) (data : Area) :
    (overArea first f data)[0] = first := by
  rw [overArea, Vector.getElem_ofFn]
  rfl

theorem overArea_overArea (first second : Block) (f g : Block → Block) (data : Area) :
    overArea second g (overArea first f data) = overArea second (fun p => g (f p)) data := by
  apply Vector.ext
  intro i hi
  by_cases h0 : i = 0
  · simp [overArea, h0]
  · simp [overArea, h0]

theorem overArea_self (data : Area) : overArea data[0] (fun p => p) data = data := by
  apply Vector.ext
  intro i hi
  rw [overArea, Vector.getElem_ofFn]
  split_ifs with h0
  · obtain rfl : i = 0 := h0
    rfl
  · rfl

/-- The loop over all blocks but the first, and what stands in that one. -/
theorem foldlM_rest {f : Block → Option Block} {g : Block → Block} (hf : ∀ p, f p = some (g p))
    (data : Area) : (List.range ((0x800 - 8) / 8)).foldlM (fun data n => modifyEntry f data (1 + n)) data =
      some (overArea data[0] g data) := by
  rw [foldlM_modifyEntry hf 1 (show 1 + (0x800 - 8) / 8 ≤ 0x100 by omega)]
  refine congrArg some (Vector.ext fun i hi => ?_)
  rw [overArea, Vector.getElem_ofFn, Vector.getElem_ofFn]
  by_cases h0 : i = 0
  · subst h0
    exact if_neg fun h => absurd h.1 (Nat.not_succ_le_zero 0)
  · rw [if_neg h0, if_pos ⟨Nat.pos_of_ne_zero h0, show i < 1 + (0x800 - 8) / 8 by omega⟩]

theorem set_zero (data : Area) (p : Block) : data.set 0 p = overArea p (fun p => p) data := by
  apply Vector.ext
  intro i hi
  rw [Vector.getElem_set, overArea, Vector.getElem_ofFn]
  exact if_congr eq_comm rfl rfl

theorem modifyFirst {f : Block → Option Block} {g : Block → Block} (hf : ∀ p, f p = some (g p))
    (data : Area) : modifyEntry f data 0 = some (overArea (g data[0]) (fun p => p) data) := by
  rw [modifyEntry_eq hf (by decide), set_zero]

variable {arm7Key : ℕ → BitVec 8} {gamecode : BitVec 32} {s₂ s₃ : CardCipher}

theorem decryptArm9_eq (h₂ : ∀ s, init1 arm7Key s gamecode = some s₂) (h₃ : init3 s₂ = some s₃)
    (s : CardCipher) (data : Area) :
    decryptArm9 arm7Key s gamecode data = some
      (if deciphered s₃ (deciphered s₂ data[0]) = (MAGIC30, MAGIC34) then
        (true, overArea mark (deciphered s₃) data, s₃)
      else (false, overArea (deciphered s₃ (deciphered s₂ data[0])) (fun p => p) data, s₃)) := by
  have hput (data : Area) : putEntry data (0, (0xE7FFDEFF, 0xE7FFDEFF)) =
      some (overArea mark (fun p => p) data) := by
    rw [putEntry, dif_pos (by decide), set_zero]
    rfl
  rw [decryptArm9, h₂]
  simp only [Option.bind_eq_bind, Option.bind_some, modifyFirst (decryptBlock_some _), h₃, hput,
    overArea_zero, overArea_overArea, foldlM_rest (decryptBlock_some _)]
  by_cases hmagic : deciphered s₃ (deciphered s₂ data[0]) = (MAGIC30, MAGIC34)
  · simp [hmagic]
  · simp [hmagic]

theorem encryptArm9_eq (h₂ : ∀ s, init1 arm7Key s gamecode = some s₂) (h₃ : init3 s₂ = some s₃)
    (s : CardCipher) {data : Area} (hmark : data[0] = mark) :
    encryptArm9 arm7Key s gamecode data = some
      (overArea (enciphered s₂ (enciphered s₃ (MAGIC30, MAGIC34))) (enciphered s₃) data, s₂) := by
  have hput (data : Area) : putEntry data (0, (MAGIC30, MAGIC34)) =
      some (overArea (MAGIC30, MAGIC34) (fun p => p) data) := by
    rw [putEntry, dif_pos (by decide), set_zero]
  have hnot : ¬ data[0] ≠ (0xE7FFDEFF, 0xE7FFDEFF) := not_not.mpr hmark
  rw [encryptArm9, if_neg hnot]
  simp only [Option.bind_eq_bind, Option.bind_some, h₂, modifyFirst (encryptBlock_some _), h₃, hput,
    overArea_zero, overArea_overArea, foldlM_rest (encryptBlock_some _)]
  rfl

/-- Exactly the areas that `encrypt_arm9` makes of marked ones are decrypted, and to these. -/
theorem decryptArm9_iff (h₂ : ∀ s, init1 arm7Key s gamecode = some s₂) (h₃ : init3 s₂ = some s₃)
    (s : CardCipher) (data data' : Area) :
    decryptArm9 arm7Key s gamecode data = some (true, data', s₃) ↔
      data'[0] = mark ∧ encryptArm9 arm7Key s gamecode data' = some (data, s₂) := by
  rw [decryptArm9_eq h₂ h₃]
  constructor
  · intro h
    split_ifs at h with hmagic
    · obtain rfl : overArea mark (deciphered s₃) data = data' := by simpa using h
      refine ⟨overArea_zero .., ?_⟩
      rw [encryptArm9_eq h₂ h₃ s (overArea_zero ..), ← hmagic, overArea_overArea]
      simp only [enciphered_deciphered, overArea_self]
    · simp at h
  · rintro ⟨hmark, h⟩
    rw [encryptArm9_eq h₂ h₃ s hmark] at h
    obtain rfl : overArea _ _ data' = data := (Prod.mk.inj (Option.some.inj h)).1
    rw [overArea_zero, deciphered_enciphered, deciphered_enciphered, if_pos rfl, overArea_overArea, ← hmark]
    simp only [deciphered_enciphered, overArea_self]

/-- The other blocks stay where the decryption fails. -/
theorem decryptArm9_false (h₂ : ∀ s, init1 arm7Key s gamecode = some s₂) (h₃ : init3 s₂ = some s₃)
    {s s' : CardCipher} {data data' : Area}
    (h : decryptArm9 arm7Key s gamecode data = some (false, data', s')) :
    ∀ i (hi : i < 0x100), i ≠ 0 → data'[i] = data[i] := by
  intro i hi h0
  rw [decryptArm9_eq h₂ h₃] at h
  split_ifs at h with hmagic
  · simp at h
  · obtain ⟨rfl, -⟩ : overArea (deciphered s₃ (deciphered s₂ data[0])) (fun p => p) data = data' ∧
        s₃ = s' := by simpa using h
    rw [overArea, Vector.getElem_ofFn]
    exact if_neg h0

theorem detectRomType_encrsecure {header : Header} {secure : Area}
    (h : detectRomType header secure = .encrsecure) :
    ¬ header.unitcode > 3 ∧ ¬ header.arm9RomOffset < 0x4000 := by
  rw [detectRomType] at h
  split_ifs at h with h1 h2
  exact ⟨h1, h2⟩

theorem detectRomType_mark {header : Header} {secure : Area} (hcode : ¬ header.unitcode > 3)
    (hoffset : ¬ header.arm9RomOffset < 0x4000) (hmark : secure[0] = mark) :
    detectRomType header secure = .ndsdumped := by
  rw [detectRomType, hmark, if_neg hcode, if_neg hoffset]
  rfl

end Area

/-- On an encrypted area, `DecryptSecureArea` succeeds exactly with the marked area that
`EncryptSecureArea` turns into this one. A second call finds that one decrypted already, and a call that
fails keeps all but the first block. -/
theorem decryptSecureArea_iff (arm7Key : ℕ → BitVec 8) (s : CardCipher) (header : Header)
    (secure secure' : Area) (hrom : detectRomType header secure = .encrsecure) :
    ((∃ s', decryptSecureArea arm7Key s header secure = some (true, secure', s')) ↔
      secure'[0] = mark ∧ ∃ s', encryptSecureArea arm7Key s header secure' = some (true, secure, s')) ∧
    (secure'[0] = mark → decryptSecureArea arm7Key s header secure' = some (true, secure', s)) ∧
    ((∃ s', decryptSecureArea arm7Key s header secure = some (false, secure', s')) →
      ∀ i (hi : i < 0x100), i ≠ 0 → secure'[i] = secure[i]) := by
  obtain ⟨s₂, h₂⟩ := exists_init1 arm7Key header.gamecode
  obtain ⟨s₃, h₃⟩ : ∃ s₃, init3 s₂ = some s₃ := exists_init2 _
  obtain ⟨hcode, hoffset⟩ := detectRomType_encrsecure hrom
  have hdec : decryptSecureArea arm7Key s header secure = decryptArm9 arm7Key s header.gamecode secure := by
    rw [decryptSecureArea, hrom]
    rfl
  have hdumped (hmark : secure'[0] = mark) := detectRomType_mark hcode hoffset hmark
  refine ⟨?_, fun hmark => ?_, ?_⟩
  · rw [hdec]
    constructor
    · rintro ⟨s', h⟩
      have hs' : s' = s₃ := by
        rw [decryptArm9_eq h₂ h₃] at h
        split_ifs at h with hmagic
        · exact (Prod.mk.inj (Prod.mk.inj (Option.some.inj h.symm)).2).2
        · simp at h
      subst hs'
      obtain ⟨hmark, henc⟩ := (decryptArm9_iff h₂ h₃ s secure secure').mp h
      refine ⟨hmark, s₂, ?_⟩
      rw [encryptSecureArea, hdumped hmark, henc]
      rfl
    · rintro ⟨hmark, s', h⟩
      rw [encryptSecureArea, hdumped hmark] at h
      refine ⟨s₃, (decryptArm9_iff h₂ h₃ s secure secure').mpr ⟨hmark, ?_⟩⟩
      rw [encryptArm9_eq h₂ h₃ s hmark] at h ⊢
      obtain ⟨-, hsecure, -⟩ : true = true ∧ overArea _ _ secure' = secure ∧ s₂ = s' := by simpa using h
      rw [hsecure]
  · rw [decryptSecureArea, hdumped hmark]
    rfl
  · rintro ⟨s', h⟩
    rw [hdec] at h
    exact decryptArm9_false h₂ h₃ h

/-- A table of nothing, an area of ones, and one that is marked all over. -/
theorem decryptSecureArea_iff_ones :
    let s : CardCipher := ⟨Vector.replicate 0x412 0, Vector.replicate 3 0⟩
    let header : Header := ⟨0x45, 0, 0x4000⟩
    let ones : Area := Vector.replicate 0x100 (1, 1)
    let marked : Area := Vector.replicate 0x100 mark
    ((∃ s', decryptSecureArea (fun _ => 0) s header ones = some (true, marked, s')) ↔
      marked[0] = mark ∧ ∃ s', encryptSecureArea (fun _ => 0) s header marked = some (true, ones, s')) ∧
    decryptSecureArea (fun _ => 0) s header marked = some (true, marked, s) := by
  intro s header ones marked
  have hrom : detectRomType header ones = .encrsecure := by
    simp [detectRomType, header, ones]
  have hmark : marked[0] = mark := Vector.getElem_replicate _
  obtain ⟨hiff, hagain, -⟩ := decryptSecureArea_iff (fun _ => 0) s header ones marked hrom
  exact ⟨hiff, hagain hmark⟩

end Desmume.Card.SecureArea
