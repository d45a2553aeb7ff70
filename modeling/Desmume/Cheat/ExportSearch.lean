import Desmume.Cheat.ExportDefs

/-! The search in the directory of a database. It stops at an entry of the game or at the end marker,
and behind the end of the file it goes on with what the buffer holds. -/

namespace Desmume.Cheat
open Library

section Directory

variable (content : List (BitVec 8))

/-- The block `t` of an encrypted directory; what is missing is left from the block before. -/
def blockAt : ℕ → List (BitVec 8)
  | 0 => r4decrypt (overlay (List.replicate 512 0) (content.take 512)) 0
  | t + 1 =>
    r4decrypt (overlay (blockAt t) ((content.drop (512 * (t + 1))).take 512)) (BitVec.ofNat 32 (t + 1))

/-- The entry `j` of a plain directory; behind the end of the file the last one stays. -/
def plainEntry : ℕ → FatR4
  | 0 => overlay (List.replicate 16 0) ((content.drop 0x100).take 16)
  | j + 1 => overlay (plainEntry j) ((content.drop (0x100 + 16 * (j + 1))).take 16)

/-- The block of the entry `j`; the number of blocks is limited by the type of the position. -/
def blockOf (j : ℕ) : ℕ := min ((0x100 + 16 * j) / 512) (2 ^ 23 - 1)

def dirEntry (encrypted : Bool) (j : ℕ) : FatR4 :=
  if encrypted then entryOf (blockAt content (blockOf j)) ((0x100 + 16 * j) % 512)
  else plainEntry content j

/-- Between the halves of the body of the loop, with the entry `j` ahead. -/
structure AtPlain (j : ℕ) (s : SearchState) : Prop where
  data : s.file.data = content
  file : content.drop s.file.pos = content.drop (0x100 + 16 * (j + 1))
  fatTmp : s.fatTmp = plainEntry content j

structure AtEncrypted (j : ℕ) (s : SearchState) : Prop where
  data : s.file.data = content
  file : content.drop s.file.pos = content.drop (512 * (blockOf j + 1))
  pos : s.pos = BitVec.ofNat 32 (0x100 + 16 * j)
  t : s.t = BitVec.ofNat 32 (blockOf j)
  buf : s.buf = blockAt content (blockOf j)
  fatTmp : j ≠ 0 → s.fatTmp = dirEntry content true j

end Directory

section Search

variable {content : List (BitVec 8)} {s : SearchState} {j : ℕ}

theorem searchStart_plain (content : List (BitVec 8)) (fat : FatR4) :
    AtPlain content 0 (searchStart false content fat) := by
  refine ⟨rfl, ?_, rfl⟩
  exact ByteFile.drop_read ⟨content, 0x100, false⟩ rfl 16

theorem AtPlain.next (h : AtPlain content j s) :
    (loadEntry false s).fat = plainEntry content j ∧ AtPlain content (j + 1) (loadEntry false s) := by
  obtain ⟨hdata, hfile, hfat⟩ := h
  have hread : s.file.readData 16 = (content.drop (0x100 + 16 * (j + 1))).take 16 := by
    rw [ByteFile.readData, hdata, hfile]
  refine ⟨hfat, hdata, ?_, ?_⟩
  · subst hdata
    exact ByteFile.drop_read s.file hfile 16
  · change overlay s.fatTmp (s.file.readData 16) = _
    rw [hfat, hread, plainEntry]

theorem searchStart_encrypted (content : List (BitVec 8)) (fat : FatR4) :
    AtEncrypted content 0 (searchStart true content fat) := by
  refine ⟨rfl, ?_, rfl, rfl, rfl, fun h => absurd rfl h⟩
  exact ByteFile.drop_read ⟨content, 0, false⟩ rfl 512

theorem blockOf_succ (j : ℕ) :
    blockOf (j + 1) =
      if (BitVec.ofNat 32 (blockOf j)) < BitVec.ofNat 32 (0x100 + 16 * (j + 1)) >>> 9 then blockOf j + 1
      else blockOf j := by
  simp only [blockOf, BitVec.lt_def, BitVec.toNat_ushiftRight, BitVec.toNat_ofNat,
    Nat.shiftRight_eq_div_pow]
  split_ifs <;> omega

theorem AtEncrypted.next (h : AtEncrypted content j s) :
    (loadEntry true s).fat = dirEntry content true j ∧
      AtEncrypted content (j + 1) (loadEntry true s) := by
  obtain ⟨hdata, hfile, hpos, ht, hbuf⟩ := h
  have hplace (j : ℕ) : (BitVec.ofNat 32 (0x100 + 16 * j)).toNat % 512 = (0x100 + 16 * j) % 512 := by
    rw [BitVec.toNat_ofNat, Nat.mod_mod_of_dvd _ (by decide)]
  have hnext : s.pos + 16 = BitVec.ofNat 32 (0x100 + 16 * (j + 1)) := by
    rw [hpos]
    exact (BitVec.ofNat_add ..).symm
  have hfat : (loadEntry true s).fat = dirEntry content true j := by
    have hentry : (loadEntry true s).fat = entryOf s.buf (s.pos.toNat % 512) := by
      rw [loadEntry, if_pos rfl]
      dsimp only
      split_ifs <;> rfl
    rw [hentry, hbuf, hpos, hplace]
    rfl
  refine ⟨hfat, ?_⟩
  have hsucc := blockOf_succ j
  rw [loadEntry, if_pos rfl, hnext, ht]
  dsimp only
  split_ifs at hsucc ⊢ with hblock
  · have hread : s.file.readData 512 = (content.drop (512 * (blockOf j + 1))).take 512 := by
      rw [ByteFile.readData, hdata, hfile]
    have hkey : BitVec.ofNat 32 (blockOf j) + 1 = BitVec.ofNat 32 (blockOf j + 1) :=
      (BitVec.ofNat_add ..).symm
    have hbuf' : r4decrypt (overlay s.buf (s.file.readData 512)) (BitVec.ofNat 32 (blockOf j) + 1) =
        blockAt content (blockOf (j + 1)) := by
      rw [hsucc, hread, hbuf, hkey]
      rfl
    refine ⟨hdata, ?_, rfl, ?_, hbuf', fun _ => ?_⟩
    · subst hdata
      rw [hsucc]
      exact ByteFile.drop_read s.file hfile 512
    · rw [hsucc, hkey]
    · rw [hbuf', hplace]
      rfl
  · rw [← hsucc] at hfile hbuf
    refine ⟨hdata, hfile, rfl, by rw [hsucc], hbuf, fun _ => ?_⟩
    rw [hbuf, hplace]
    rfl

/-- The place in the file behind the entry `k` and the one after it. -/
def directoryEnd (encrypted : Bool) (k : ℕ) : ℕ :=
  if encrypted then 512 * (blockOf (k + 1) + 1) else 0x100 + 16 * (k + 2)

/-- The search with the entry `k` at hand. -/
structure AtEntry (content : List (BitVec 8)) (encrypted : Bool) (k : ℕ) (s : SearchState) : Prop where
  data : s.file.data = content
  file : content.drop s.file.pos = content.drop (directoryEnd encrypted k)
  fat : s.fat = dirEntry content encrypted k
  fatTmp : s.fatTmp = dirEntry content encrypted (k + 1)

/-- The entries one after another. -/
theorem iterate_loadEntry (encrypted : Bool) (content : List (BitVec 8)) (fat : FatR4) (k : ℕ) :
    AtEntry content encrypted k
      ((loadEntry encrypted)^[k] (loadEntry encrypted (searchStart encrypted content fat))) := by
  rw [← Function.iterate_succ_apply, Function.iterate_succ_apply']
  cases encrypted with
  | false =>
    have hstep (j : ℕ) (s : SearchState) (hs : AtPlain content j s) :
        AtPlain content (j + 1) (loadEntry false s) := hs.next.2
    have h := iterate_indexed hstep (searchStart_plain content fat) k
    rw [Nat.zero_add] at h
    obtain ⟨hfat, hnext⟩ := h.next
    exact ⟨hnext.data, hnext.file, hfat, hnext.fatTmp⟩
  | true =>
    have hstep (j : ℕ) (s : SearchState) (hs : AtEncrypted content j s) :
        AtEncrypted content (j + 1) (loadEntry true s) := hs.next.2
    have h := iterate_indexed hstep (searchStart_encrypted content fat) k
    rw [Nat.zero_add] at h
    obtain ⟨hfat, hnext⟩ := h.next
    exact ⟨hnext.data, hnext.file, hfat, hnext.fatTmp (Nat.succ_ne_zero k)⟩

/-- The search comes to an end exactly if it gets to an entry of the game or to the end marker. -/
theorem search_terminates_iff (encrypted : Bool) (gameCode content : List (BitVec 8)) (fat : FatR4) :
    (∃ n found, search encrypted gameCode content fat n = some found) ↔
      ∃ k, EntryStops gameCode (dirEntry content encrypted k) := by
  have hloop : (∃ n found, search encrypted gameCode content fat n = some found) ↔
      Terminates (fun s : SearchState => ¬ EntryStops gameCode s.fat) (loadEntry encrypted)
        (loadEntry encrypted (searchStart encrypted content fat)) := by
    simp only [search, Option.map_eq_some_iff, Terminates, searchLoop]
    constructor
    · rintro ⟨n, -, s, hs, -⟩
      exact ⟨n, s, hs⟩
    · rintro ⟨n, s, hs⟩
      exact ⟨n, _, s, hs, rfl⟩
  rw [hloop, terminates_iff_exists]
  simp only [(iterate_loadEntry encrypted content fat _).fat, not_not]

end Search

end Desmume.Cheat
