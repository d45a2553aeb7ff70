import Desmume.Library.Feistel
import Desmume.Library.LittleEndian
import Desmume.Library.Table

/-! The block cipher of the cartridge and the firmware. The key buffer is read and written with
checks: an access outside its words has no result. -/

namespace Desmume.Firmware
open Library

/-- The words that are allocated for `keyBuf`. -/
abbrev KeyBuf := Vector (BitVec 32) 0x412

/-- What `decrypt` and `encrypt` work on: `ptr[0]` and `ptr[1]`. -/
abbrev Block := BitVec 32 × BitVec 32

/-- `DWNUM`. -/
def dwnum (i : BitVec 32) : ℕ := (i >>> 2).toNat

/-- `bswap32`. -/
def bswap32 (val : BitVec 32) : BitVec 32 :=
  (val <<< 24 &&& 0xFF000000) ||| (val <<< 8 &&& 0x00FF0000) ||| (val >>> 8 &&& 0x0000FF00) |||
    (val >>> 24 &&& 0x000000FF)

section Cipher

variable (keyBuf : KeyBuf)

/-- `keyBuf[DWNUM(base + (((z >> s) & 0xFF) << 2))]`. -/
def tableWord (base z : BitVec 32) (s : ℕ) : Option (BitVec 32) :=
  keyBuf[dwnum (base + (((z >>> s) &&& 0xFF) <<< 2))]?

/-- The four table words of `z`. -/
def mixWord (z : BitVec 32) : Option (BitVec 32) := do
  let x ← tableWord keyBuf 0x048 z 24
  let x := (← tableWord keyBuf 0x448 z 16) + x
  let x := (← tableWord keyBuf 0x848 z 8) ^^^ x
  let x := (← tableWord keyBuf 0xC48 z 0) + x
  return x

/-- The body of the loops of `decrypt` and `encrypt`, on `y` and `x`. -/
def cipherRound (s : BitVec 32 × BitVec 32) (i : ℕ) : Option (BitVec 32 × BitVec 32) := do
  let (y, x) := s
  let z := (← keyBuf[i]?) ^^^ x
  let x ← mixWord keyBuf z
  return (z, y ^^^ x)

/-- `_KEY1::decrypt`. -/
def decrypt (ptr : Block) : Option Block := do
  let (y, x) ← ((List.range 16).map (0x11 - ·)).foldlM (cipherRound keyBuf) ptr
  return (x ^^^ (← keyBuf[dwnum 0x04]?), y ^^^ (← keyBuf[dwnum 0x00]?))

/-- `_KEY1::encrypt`. -/
def encrypt (ptr : Block) : Option Block := do
  let (y, x) ← (List.range 16).foldlM (cipherRound keyBuf) ptr
  return (x ^^^ (← keyBuf[dwnum 0x40]?), y ^^^ (← keyBuf[dwnum 0x44]?))

end Cipher

structure Key1 where
  keyBuf : KeyBuf
  keyCode : Vector (BitVec 32) 3

namespace Key1

/-- `encrypt(&keyCode[j])`. -/
def encryptKeyCode (key : Key1) (j : ℕ) : Option Key1 := do
  let code ← encrypt key.keyBuf (← key.keyCode[j]?, ← key.keyCode[j + 1]?)
  let keyCode ← putAll key.keyCode [(j, code.1), (j + 1, code.2)]
  return { key with keyCode }

/-- `keyBuf[DWNUM(i)] ^= bswap32(keyCode[DWNUM(i % modulo)])`. -/
def xorKeyCode (keyCode : Vector (BitVec 32) 3) (modulo : BitVec 8) (keyBuf : KeyBuf) (n : ℕ) :
    Option KeyBuf := do
  let i := BitVec.ofNat 32 (4 * n)
  let code ← keyCode[dwnum (i % modulo.setWidth 32)]?
  let old ← keyBuf[dwnum i]?
  putEntry keyBuf (dwnum i, old ^^^ bswap32 code)

/-- The body of the second loop: the next block of the key buffer. -/
def fillBlock (s : Block × KeyBuf) (n : ℕ) : Option (Block × KeyBuf) := do
  let i := BitVec.ofNat 32 (8 * n)
  let scratch ← encrypt s.2 s.1
  let keyBuf ← putAll s.2 [(dwnum i, scratch.2), (dwnum (i + 4), scratch.1)]
  return (scratch, keyBuf)

/-- `_KEY1::applyKeycode`. -/
def applyKeycode (key : Key1) (modulo : BitVec 8) : Option Key1 := do
  let key ← key.encryptKeyCode 1
  let key ← key.encryptKeyCode 0
  let keyBuf ← (List.range (0x44 / 4 + 1)).foldlM (xorKeyCode key.keyCode modulo) key.keyBuf
  let (_, keyBuf) ← (List.range (0x1040 / 8 + 1)).foldlM fillBlock ((0, 0), keyBuf)
  return { key with keyBuf }

/-- `memcpy(keyBuf, keyBufPtr, 0x1048)`. -/
def copyWord (keyBufPtr : ℕ → BitVec 8) (keyBuf : KeyBuf) (n : ℕ) : Option KeyBuf :=
  putEntry keyBuf
    (n, BitVec.ofNat 32 (ofLeBytes ((List.range 4).map fun k => keyBufPtr (4 * n + k))))

/-- `if (level >= n) applyKeycode(modulo)`. -/
def applyFrom (key : Key1) (n level modulo : BitVec 8) : Option Key1 :=
  if n ≤ level then key.applyKeycode modulo else some key

/-- `_KEY1::init`. -/
def init (key : Key1) (keyBufPtr : ℕ → BitVec 8) (idcode : BitVec 32) (level modulo : BitVec 8) :
    Option Key1 := do
  let keyBuf ← (List.range (0x1048 / 4)).foldlM (copyWord keyBufPtr) key.keyBuf
  let key : Key1 := ⟨keyBuf, #v[idcode, idcode >>> 1, idcode <<< 1]⟩
  let key ← key.applyFrom 1 level modulo
  let key ← key.applyFrom 2 level modulo
  let key := { key with keyCode := #v[key.keyCode[0], key.keyCode[1] <<< 1, key.keyCode[2] >>> 1] }
  key.applyFrom 3 level modulo

end Key1

/-! ### The network -/

section Network

variable {keyBuf : KeyBuf}

theorem exists_tableWord (keyBuf : KeyBuf) (base : BitVec 32) (hbase : base ≤ 0xC48)
    (z : BitVec 32) (s : ℕ) : ∃ x, tableWord keyBuf base z s = some x := by
  have hbyte : ((z >>> s) &&& 0xFF).toNat ≤ 0xFF := by
    rw [BitVec.toNat_and]
    exact Nat.and_le_right
  have hlt : dwnum (base + (((z >>> s) &&& 0xFF) <<< 2)) < 0x412 := by
    generalize (z >>> s) &&& 0xFF = b at hbyte ⊢
    have hb : base.toNat ≤ 0xC48 := hbase
    rw [dwnum, BitVec.toNat_ushiftRight, BitVec.toNat_add, BitVec.toNat_shiftLeft,
      Nat.shiftLeft_eq, Nat.shiftRight_eq_div_pow]
    omega
  exact ⟨_, Vector.getElem?_eq_getElem hlt⟩

/-- The round function that the tables make. -/
def mix (keyBuf : KeyBuf) (z : BitVec 32) : BitVec 32 := (mixWord keyBuf z).getD 0

theorem mixWord_eq (keyBuf : KeyBuf) (z : BitVec 32) : mixWord keyBuf z = some (mix keyBuf z) := by
  obtain ⟨x₀, h₀⟩ := exists_tableWord keyBuf 0x048 (by decide) z 24
  obtain ⟨x₁, h₁⟩ := exists_tableWord keyBuf 0x448 (by decide) z 16
  obtain ⟨x₂, h₂⟩ := exists_tableWord keyBuf 0x848 (by decide) z 8
  obtain ⟨x₃, h₃⟩ := exists_tableWord keyBuf 0xC48 (by decide) z 0
  rw [mix, mixWord, h₀, h₁, h₂, h₃]
  rfl

/-- A key word, where `i` is the index of one. -/
def keyWord (keyBuf : KeyBuf) (i : ℕ) : BitVec 32 := keyBuf[i]?.getD 0

theorem getElem?_keyWord (keyBuf : KeyBuf) {i : ℕ} (hi : i < 0x412) :
    keyBuf[i]? = some (keyWord keyBuf i) := by
  rw [keyWord, Vector.getElem?_eq_getElem hi]
  rfl

theorem cipherRound_eq (keyBuf : KeyBuf) (s : Block) {i : ℕ} (hi : i < 0x412) :
    cipherRound keyBuf s i = some (feistelRound (mix keyBuf) (keyWord keyBuf i) s) := by
  rw [cipherRound, getElem?_keyWord keyBuf hi]
  change (mixWord keyBuf (keyWord keyBuf i ^^^ s.2)).bind _ = _
  rw [mixWord_eq]
  rfl

theorem foldlM_cipherRound (keyBuf : KeyBuf) {is : List ℕ} (his : ∀ i ∈ is, i < 0x412) (s : Block) :
    is.foldlM (cipherRound keyBuf) s =
      some ((is.map (keyWord keyBuf)).foldl (fun s k => feistelRound (mix keyBuf) k s) s) := by
  induction is generalizing s with
  | nil => rfl
  | cons i is ih =>
    rw [List.foldlM_cons, cipherRound_eq keyBuf s (his i List.mem_cons_self)]
    exact ih (fun j hj => his j (List.mem_cons_of_mem _ hj)) _

/-- The key words, in the order of `encrypt`. -/
def keyWords (keyBuf : KeyBuf) : List (BitVec 32) := (List.range 18).map (keyWord keyBuf)

theorem encrypt_eq (keyBuf : KeyBuf) (ptr : Block) :
    encrypt keyBuf ptr = some (feistel (mix keyBuf) (keyWords keyBuf) ptr) := by
  have his : ∀ i ∈ List.range 16, i < 0x412 := by
    intro i hi
    have := List.mem_range.mp hi
    omega
  have hwords : keyWords keyBuf =
      (List.range 16).map (keyWord keyBuf) ++ [keyWord keyBuf 0x10, keyWord keyBuf 0x11] := rfl
  rw [encrypt, foldlM_cipherRound keyBuf his, hwords, feistel_append]
  have h₀ : keyBuf[dwnum 0x40]? = _ := getElem?_keyWord keyBuf (i := 0x10) (by decide)
  have h₁ : keyBuf[dwnum 0x44]? = _ := getElem?_keyWord keyBuf (i := 0x11) (by decide)
  rw [h₀, h₁]
  rfl

theorem decrypt_eq (keyBuf : KeyBuf) (ptr : Block) :
    decrypt keyBuf ptr = some (feistel (mix keyBuf) (keyWords keyBuf).reverse ptr) := by
  have his : ∀ i ∈ (List.range 16).map (0x11 - ·), i < 0x412 := by
    intro i hi
    obtain ⟨j, -, rfl⟩ := List.mem_map.mp hi
    omega
  have hwords : (keyWords keyBuf).reverse = ((List.range 16).map (0x11 - ·)).map (keyWord keyBuf) ++
      [keyWord keyBuf 0x01, keyWord keyBuf 0x00] := rfl
  rw [decrypt, foldlM_cipherRound keyBuf his, hwords, feistel_append]
  have h₀ : keyBuf[dwnum 0x04]? = _ := getElem?_keyWord keyBuf (i := 0x01) (by decide)
  have h₁ : keyBuf[dwnum 0x00]? = _ := getElem?_keyWord keyBuf (i := 0x00) (by decide)
  rw [h₀, h₁]
  rfl

theorem decrypt_encrypt (keyBuf : KeyBuf) (ptr : Block) :
    (encrypt keyBuf ptr).bind (decrypt keyBuf) = some ptr := by
  have hlen : 2 ≤ (keyWords keyBuf).length := by
    rw [keyWords, List.length_map, List.length_range]
    decide
  rw [encrypt_eq, Option.bind_some, decrypt_eq, feistel_reverse hlen]

theorem encrypt_decrypt (keyBuf : KeyBuf) (ptr : Block) :
    (decrypt keyBuf ptr).bind (encrypt keyBuf) = some ptr := by
  have hlen : 2 ≤ (keyWords keyBuf).reverse.length := by
    rw [keyWords, List.length_reverse, List.length_map, List.length_range]
    decide
  have hback := feistel_reverse (F := mix keyBuf) hlen ptr
  rw [List.reverse_reverse] at hback
  rw [decrypt_eq, Option.bind_some, encrypt_eq, hback]

end Network

/-! ### The key buffer -/

section Accesses

theorem exists_bind {α β : Type*} {x : Option α} {f : α → Option β} (hx : ∃ a, x = some a)
    (hf : ∀ a, ∃ b, f a = some b) : ∃ b, x.bind f = some b := by
  obtain ⟨a, rfl⟩ := hx
  exact hf a

theorem exists_encrypt (keyBuf : KeyBuf) (ptr : Block) : ∃ c, encrypt keyBuf ptr = some c :=
  ⟨_, encrypt_eq keyBuf ptr⟩

theorem exists_putEntry {α : Type*} {n i : ℕ} (hi : i < n) (t : Vector α n) (x : α) :
    ∃ t', putEntry t (i, x) = some t' := ⟨_, dif_pos hi⟩

theorem exists_foldlM {σ ι : Type*} {step : σ → ι → Option σ} {ops : List ι}
    (hstep : ∀ op ∈ ops, ∀ s, ∃ s', step s op = some s') (s : σ) :
    ∃ s', ops.foldlM step s = some s' := by
  have hrun : ∃ s', ops.foldlM step s = some s' ∧ True :=
    foldlM_invariant (I := fun _ => True)
      (fun op hop s _ => (hstep op hop s).imp fun _ h => ⟨h, trivial⟩) trivial
  exact hrun.imp fun _ h => h.1

theorem exists_encryptKeyCode (key : Key1) {j : ℕ} (hj : j < 2) :
    ∃ key', key.encryptKeyCode j = some key' := by
  have h₀ : ∃ x, key.keyCode[j]? = some x := ⟨_, Vector.getElem?_eq_getElem (by omega)⟩
  have h₁ : ∃ x, key.keyCode[j + 1]? = some x := ⟨_, Vector.getElem?_eq_getElem (by omega)⟩
  refine exists_bind h₀ fun x₀ => exists_bind h₁ fun x₁ => ?_
  refine exists_bind (exists_encrypt key.keyBuf (x₀, x₁)) fun code => ?_
  refine exists_bind (exists_bind (exists_putEntry (by omega) _ _) fun t => ?_) fun _ => ⟨_, rfl⟩
  exact exists_bind (exists_putEntry (by omega) t _) fun _ => ⟨_, rfl⟩

theorem exists_xorKeyCode (keyCode : Vector (BitVec 32) 3) {modulo : BitVec 8}
    (hmodulo : modulo = 8 ∨ modulo = 12) (keyBuf : KeyBuf) {n : ℕ} (hn : n ≤ 0x11) :
    ∃ k, Key1.xorKeyCode keyCode modulo keyBuf n = some k := by
  have hcode : dwnum (BitVec.ofNat 32 (4 * n) % modulo.setWidth 32) < 3 := by
    rcases hmodulo with rfl | rfl <;>
      rw [dwnum, BitVec.toNat_ushiftRight, BitVec.toNat_umod, Nat.shiftRight_eq_div_pow]
    · change _ % 8 / _ < 3
      omega
    · change _ % 12 / _ < 3
      omega
  have hword : dwnum (BitVec.ofNat 32 (4 * n)) < 0x412 := by
    rw [dwnum, BitVec.toNat_ushiftRight, BitVec.toNat_ofNat, Nat.shiftRight_eq_div_pow]
    omega
  refine exists_bind ⟨_, Vector.getElem?_eq_getElem hcode⟩ fun code => ?_
  refine exists_bind ⟨_, Vector.getElem?_eq_getElem hword⟩ fun old => ?_
  exact exists_putEntry hword keyBuf _

theorem exists_fillBlock (s : Block × KeyBuf) {n : ℕ} (hn : n ≤ 0x208) :
    ∃ s', Key1.fillBlock s n = some s' := by
  have hlow : dwnum (BitVec.ofNat 32 (8 * n)) < 0x412 := by
    rw [dwnum, BitVec.toNat_ushiftRight, BitVec.toNat_ofNat, Nat.shiftRight_eq_div_pow]
    omega
  have hhigh : dwnum (BitVec.ofNat 32 (8 * n) + 4) < 0x412 := by
    rw [dwnum, BitVec.toNat_ushiftRight, BitVec.toNat_add, BitVec.toNat_ofNat,
      Nat.shiftRight_eq_div_pow]
    change (_ + 4) % _ / _ < _
    omega
  refine exists_bind (exists_encrypt s.2 s.1) fun scratch => ?_
  refine exists_bind (exists_bind (exists_putEntry hlow _ _) fun t => ?_) fun _ => ⟨_, rfl⟩
  exact exists_bind (exists_putEntry hhigh t _) fun _ => ⟨_, rfl⟩

theorem exists_applyKeycode (key : Key1) {modulo : BitVec 8} (hmodulo : modulo = 8 ∨ modulo = 12) :
    ∃ key', key.applyKeycode modulo = some key' := by
  refine exists_bind (exists_encryptKeyCode key (by decide)) fun key => ?_
  refine exists_bind (exists_encryptKeyCode key (by decide)) fun key => ?_
  refine exists_bind (exists_foldlM (fun n hn k => ?_) key.keyBuf) fun keyBuf => ?_
  · exact exists_xorKeyCode key.keyCode hmodulo k (Nat.lt_succ_iff.mp (List.mem_range.mp hn))
  · refine exists_bind (exists_foldlM (fun n hn s => ?_) ((0, 0), keyBuf)) fun _ => ⟨_, rfl⟩
    exact exists_fillBlock s (Nat.lt_succ_iff.mp (List.mem_range.mp hn))

theorem exists_applyFrom (key : Key1) (n level : BitVec 8) {modulo : BitVec 8}
    (hmodulo : modulo = 8 ∨ modulo = 12) : ∃ key', key.applyFrom n level modulo = some key' := by
  rw [Key1.applyFrom]
  split_ifs
  · exact exists_applyKeycode key hmodulo
  · exact ⟨key, rfl⟩

theorem exists_init (key : Key1) (keyBufPtr : ℕ → BitVec 8) (idcode : BitVec 32)
    (level : BitVec 8) {modulo : BitVec 8} (hmodulo : modulo = 8 ∨ modulo = 12) :
    ∃ key', key.init keyBufPtr idcode level modulo = some key' := by
  have hcopy : ∃ keyBuf, (List.range (0x1048 / 4)).foldlM (Key1.copyWord keyBufPtr) key.keyBuf =
      some keyBuf :=
    exists_foldlM (fun n hn k => exists_putEntry (List.mem_range.mp hn) k _) key.keyBuf
  rw [Key1.init]
  refine exists_bind hcopy fun keyBuf => ?_
  refine exists_bind (exists_applyFrom _ 1 level hmodulo) fun key => ?_
  refine exists_bind (exists_applyFrom key 2 level hmodulo) fun key => ?_
  exact exists_applyFrom _ 3 level hmodulo

end Accesses

/-- The two directions of the cipher undo each other with any key buffer, and no access to it that
`init`, `applyKeycode`, `encrypt` or `decrypt` makes falls outside. -/
theorem key1_correct (key : Key1) (ptr : Block) :
    (encrypt key.keyBuf ptr).bind (decrypt key.keyBuf) = some ptr ∧
      (decrypt key.keyBuf ptr).bind (encrypt key.keyBuf) = some ptr ∧
      ∀ modulo : BitVec 8, modulo = 8 ∨ modulo = 12 →
        (∃ key', key.applyKeycode modulo = some key') ∧
          ∀ keyBufPtr idcode level, ∃ key', key.init keyBufPtr idcode level modulo = some key' :=
  ⟨decrypt_encrypt key.keyBuf ptr, encrypt_decrypt key.keyBuf ptr, fun _ hmodulo =>
    ⟨exists_applyKeycode key hmodulo, fun keyBufPtr idcode level =>
      exists_init key keyBufPtr idcode level hmodulo⟩⟩

/-- A key that starts from nothing. -/
def zeroKey : Key1 := ⟨Vector.replicate 0x412 0, Vector.replicate 3 0⟩

theorem zeroKey_correct :
    (∃ key', zeroKey.applyKeycode 8 = some key') ∧
      ∀ keyBufPtr idcode level, ∃ key', zeroKey.init keyBufPtr idcode level 8 = some key' :=
  (key1_correct zeroKey (0, 0)).2.2 8 (.inl rfl)

end Desmume.Firmware
