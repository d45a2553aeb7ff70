import Desmume.Cheat.ExportSearch

/-! The codes of a database. They are read within the buffer exactly if each of its records ends in
it, and kept within the items exactly if there are no more cheats than the header has announced. With
its directory this says when a database is exported safely. -/

namespace Desmume.Cheat
open Library

section Format

variable (data : List (BitVec 8))

/-- The two strings behind the word at `cmd` end in the buffer, with the next word at `place`. -/
def StringsAt (cmd place : ℕ) : Prop :=
  ∃ s s', stringAt data (cmd + 4) = some s ∧ stringAt data (cmd + 4 + s.val.length + 1) = some s' ∧
    place = behindStrings cmd s s'

/-- The cheat at `cmd` ends in the buffer, with the next record at `next`. It is kept or, if it is too
long, dropped. -/
inductive CheatAt (cmd : ℕ) : ℕ → ℕ → Prop
  | kept {place : ℕ} {len size : BitVec 32} (hstrings : StringsAt data cmd place)
      (hlen : readWord data place = some len) (hfits : (len / 2#32).toNat ≤ maxXxCode)
      (hcodes : place + 4 + 8 * (len / 2#32).toNat ≤ data.length)
      (hsize : readWord data cmd = some size) : CheatAt cmd (cmd + ((size + 1) * 4).toNat) 1
  | dropped {place : ℕ} {len size : BitVec 32} (hstrings : StringsAt data cmd place)
      (hlen : readWord data place = some len) (hlong : ¬ (len / 2#32).toNat ≤ maxXxCode)
      (hsize : readWord data cmd = some size) : CheatAt cmd (cmd + ((size + 1) * 4).toNat) 0

/-- So many cheats in a row, with how many of them are kept. -/
inductive CheatsAt : ℕ → ℕ → ℕ → ℕ → Prop
  | nil {cmd : ℕ} : CheatsAt 0 cmd cmd 0
  | cons {k cmd next last m m' : ℕ} (hcheat : CheatAt data cmd next m)
      (hrest : CheatsAt k next last m') : CheatsAt (k + 1) cmd last (m + m')

/-- Folders and cheats until so many items are counted, with how many cheats are kept; a folder counts
as an item. -/
inductive ItemsAt : ℕ → ℕ → ℕ → Prop
  | done {cmd : ℕ} : ItemsAt 0 cmd 0
  | cheat {left cmd next m m' : ℕ} {head : BitVec 32} (hhead : readWord data cmd = some head)
      (hkind : head &&& 0xF0000000#32 ≠ 0x10000000#32) (hcheat : CheatsAt data 1 cmd next m)
      (hrest : ItemsAt left next m') : ItemsAt (left + 1) cmd (m + m')
  | folder {left cmd place next m m' : ℕ} {head : BitVec 32} (hhead : readWord data cmd = some head)
      (hkind : head &&& 0xF0000000#32 = 0x10000000#32) (hstrings : StringsAt data cmd place)
      (hcheats : CheatsAt data (head &&& 0x00FFFFFF#32).toNat place next m)
      (hrest : ItemsAt (left - (head &&& 0x00FFFFFF#32).toNat) next m') :
      ItemsAt (left + 1) cmd (m + m')

/-- The title ends in the buffer and fits into its array, and so do the items behind it. -/
def CodesAt (encOffset : ℕ) : Prop :=
  ∃ title count kept, stringAt data encOffset = some title ∧ title.val.length ≤ gameTitleSize ∧
    readWord data (wordAligned (encOffset + title.val.length + 4)) = some count ∧
    ItemsAt data (count &&& 0x0FFFFFFF#32).toNat
      (wordAligned (encOffset + title.val.length + 4) + 36) kept ∧
    kept ≤ (count &&& 0x0FFFFFFF#32).toNat

end Format

section Read

variable {data : List (BitVec 8)} {numCheats : ℕ} {folderName : Option CString}

theorem readWord_eq_some {offset : ℕ} {w : BitVec 32} (h : readWord data offset = some w) :
    offset + 4 ≤ data.length := by
  rw [readWord] at h
  split_ifs at h with hle
  exact hle

theorem readWord_of_le {offset : ℕ} (h : offset + 4 ≤ data.length) :
    ∃ w, readWord data offset = some w := ⟨_, if_pos h⟩

theorem readLine_isSome (place : ℕ) :
    (∃ line, readLine data place = some line) ↔ place + 8 ≤ data.length := by
  constructor
  · rintro ⟨line, h⟩
    simp only [readLine, Option.bind_eq_bind, Option.bind_eq_some_iff] at h
    obtain ⟨hi, -, lo, hlo, -⟩ := h
    exact readWord_eq_some hlo
  · intro h
    have hword {offset : ℕ} (hle : offset + 4 ≤ data.length) : ∃ x, readWord data offset = some x :=
      readWord_of_le hle
    obtain ⟨hi, hhi⟩ := hword (show place + 4 ≤ data.length by omega)
    obtain ⟨lo, hlo⟩ := hword (show place + 4 + 4 ≤ data.length by omega)
    exact ⟨(hi, lo), by rw [readLine, hhi, hlo]; rfl⟩

theorem readLines_isSome (place n : ℕ) (hplace : place ≤ data.length) :
    (∃ codes, (List.range n).mapM (fun j => readLine data (place + 8 * j)) = some codes) ↔
      place + 8 * n ≤ data.length := by
  induction n with
  | zero => exact ⟨fun _ => hplace, fun _ => ⟨[], rfl⟩⟩
  | succ n ih =>
    rw [List.range_succ]
    simp only [List.mapM_append, List.mapM_cons, List.mapM_nil, Option.bind_eq_bind, Option.pure_def,
      Option.bind_eq_some_iff, Option.some.injEq]
    constructor
    · rintro ⟨codes, before, hbefore, behind, ⟨line, hline, -⟩, -⟩
      have h := (readLine_isSome (place + 8 * n)).1 ⟨line, hline⟩
      omega
    · intro h
      obtain ⟨before, hbefore⟩ := ih.2 (by omega)
      obtain ⟨line, hline⟩ : ∃ line, readLine data (place + 8 * n) = some line :=
        (readLine_isSome _).2 (by omega)
      exact ⟨_, before, hbefore, _, ⟨line, hline, [], rfl, rfl⟩, rfl⟩

/-- A cheat that is kept needs an item and its lines. -/
theorem storeCheat_eq_some {cheatName cheatNote : CString} {place n : ℕ} {cheats : List CheatItem}
    (hplace : place ≤ data.length) (hn : n ≤ maxXxCode) :
    (∃ cheats', storeCheat data numCheats folderName cheatName cheatNote place n cheats =
        some cheats') ↔ cheats.length < numCheats ∧ place + 8 * n ≤ data.length := by
  rw [← readLines_isSome place n hplace, storeCheat, dif_pos hn]
  split_ifs with hlt
  · simp only [Option.bind_eq_bind, Option.pure_def, Option.bind_eq_some_iff, Option.some.injEq]
    constructor
    · rintro ⟨cheats', codes, hcodes, -⟩
      exact ⟨hlt, codes, hcodes⟩
    · rintro ⟨-, codes, hcodes⟩
      exact ⟨_, codes, hcodes, rfl⟩
  · constructor
    · rintro ⟨cheats', h⟩
      exact absurd h (by simp)
    · intro h
      exact absurd h.1 hlt

theorem storeCheat_length {cheatName cheatNote : CString} {place n : ℕ}
    {cheats cheats' : List CheatItem} (hn : n ≤ maxXxCode)
    (h : storeCheat data numCheats folderName cheatName cheatNote place n cheats = some cheats') :
    cheats'.length = cheats.length + 1 := by
  rw [storeCheat, dif_pos hn] at h
  split_ifs at h with hlt
  simp only [Option.bind_eq_bind, Option.pure_def, Option.bind_eq_some_iff, Option.some.injEq] at h
  obtain ⟨codes, -, rfl⟩ := h
  rw [List.length_append, List.length_singleton]

theorem storeCheat_of_long {cheatName cheatNote : CString} {place n : ℕ} {cheats : List CheatItem}
    (hn : ¬ n ≤ maxXxCode) :
    storeCheat data numCheats folderName cheatName cheatNote place n cheats = some cheats :=
  dif_neg hn

/-- What has been read of a cheat, in one place. -/
theorem readCheat_eq_some {cmd next : ℕ} {cheats cheats' : List CheatItem} :
    readCheat data numCheats folderName cmd cheats = some (next, cheats') ↔
      ∃ s s' len size, stringAt data (cmd + 4) = some s ∧
        stringAt data (cmd + 4 + s.val.length + 1) = some s' ∧
        readWord data (behindStrings cmd s s') = some len ∧
        storeCheat data numCheats folderName s s' (behindStrings cmd s s' + 4)
          (len / 2#32).toNat cheats = some cheats' ∧
        readWord data cmd = some size ∧ next = cmd + ((size + 1) * 4).toNat := by
  simp only [readCheat, Option.bind_eq_bind, Option.pure_def, Option.bind_eq_some_iff,
    Option.some.injEq, Prod.mk.injEq]
  constructor
  · rintro ⟨s, hs, s', hs', len, hlen, stored, hstored, size, hsize, rfl, rfl⟩
    exact ⟨s, s', len, size, hs, hs', hlen, hstored, hsize, rfl⟩
  · rintro ⟨s, s', len, size, hs, hs', hlen, hstored, hsize, rfl⟩
    exact ⟨s, hs, s', hs', len, hlen, cheats', hstored, size, hsize, rfl, rfl⟩

/-- Reading got from one record to the next, and the items hold `m` cheats more. -/
def Kept (numCheats : ℕ) (cheats cheats' : List CheatItem) (m : ℕ) : Prop :=
  cheats'.length = cheats.length + m ∧ cheats'.length ≤ numCheats

theorem Kept.trans {cheats cheats' cheats'' : List CheatItem} {m m' : ℕ}
    (h : Kept numCheats cheats cheats' m) (h' : Kept numCheats cheats' cheats'' m') :
    Kept numCheats cheats cheats'' (m + m') := by
  refine ⟨?_, h'.2⟩
  rw [h'.1, h.1, Nat.add_assoc]

theorem Kept.refl {cheats : List CheatItem} (h : cheats.length ≤ numCheats) :
    Kept numCheats cheats cheats 0 := ⟨rfl, h⟩

theorem cheatAt_of_readCheat {cmd next : ℕ} {cheats cheats' : List CheatItem}
    (hle : cheats.length ≤ numCheats)
    (h : readCheat data numCheats folderName cmd cheats = some (next, cheats')) :
    ∃ m, CheatAt data cmd next m ∧ Kept numCheats cheats cheats' m := by
  obtain ⟨s, s', len, size, hs, hs', hlen, hstore, hsize, rfl⟩ := readCheat_eq_some.1 h
  have hstrings : StringsAt data cmd (behindStrings cmd s s') := ⟨s, s', hs, hs', rfl⟩
  have hplace := readWord_eq_some hlen
  by_cases hfits : (len / 2#32).toNat ≤ maxXxCode
  · obtain ⟨hlt, hcodes⟩ := (storeCheat_eq_some hplace hfits).1 ⟨cheats', hstore⟩
    have hlength := storeCheat_length hfits hstore
    exact ⟨1, .kept hstrings hlen hfits hcodes hsize, hlength, by omega⟩
  · rw [storeCheat_of_long hfits, Option.some.injEq] at hstore
    subst hstore
    exact ⟨0, .dropped hstrings hlen hfits hsize, .refl hle⟩

theorem readCheat_of_cheatAt {cmd next m : ℕ} {cheats : List CheatItem}
    (h : CheatAt data cmd next m) (hle : cheats.length + m ≤ numCheats) :
    ∃ cheats', readCheat data numCheats folderName cmd cheats = some (next, cheats') ∧
      Kept numCheats cheats cheats' m := by
  cases h with
  | kept hstrings hlen hfits hcodes hsize =>
    obtain ⟨s, s', hs, hs', rfl⟩ := hstrings
    obtain ⟨cheats', hstore⟩ :=
      (storeCheat_eq_some (readWord_eq_some hlen) hfits).2 ⟨hle, hcodes⟩
    have hlength := storeCheat_length hfits hstore
    exact ⟨cheats', readCheat_eq_some.2 ⟨s, s', _, _, hs, hs', hlen, hstore, hsize, rfl⟩, hlength,
      by omega⟩
  | dropped hstrings hlen hlong hsize =>
    obtain ⟨s, s', hs, hs', rfl⟩ := hstrings
    exact ⟨cheats, readCheat_eq_some.2 ⟨s, s', _, _, hs, hs', hlen, storeCheat_of_long hlong, hsize,
      rfl⟩, .refl hle⟩

theorem cheatsAt_of_readFolder {k cmd next : ℕ} {cheats cheats' : List CheatItem}
    (hle : cheats.length ≤ numCheats)
    (h : readFolder data numCheats folderName k cmd cheats = some (next, cheats')) :
    ∃ m, CheatsAt data k cmd next m ∧ Kept numCheats cheats cheats' m := by
  induction k generalizing cmd cheats with
  | zero =>
    simp only [readFolder, Option.some.injEq, Prod.mk.injEq] at h
    obtain ⟨rfl, rfl⟩ := h
    exact ⟨0, .nil, .refl hle⟩
  | succ k ih =>
    simp only [readFolder, Option.bind_eq_bind, Option.bind_eq_some_iff] at h
    obtain ⟨⟨cmd', cheats''⟩, hcheat, hrest⟩ := h
    obtain ⟨m, hat, hkept⟩ := cheatAt_of_readCheat hle hcheat
    obtain ⟨m', hats, hkept'⟩ := ih hkept.2 hrest
    exact ⟨m + m', .cons hat hats, hkept.trans hkept'⟩

theorem readFolder_of_cheatsAt {k cmd next m : ℕ} {cheats : List CheatItem}
    (h : CheatsAt data k cmd next m) (hle : cheats.length + m ≤ numCheats) :
    ∃ cheats', readFolder data numCheats folderName k cmd cheats = some (next, cheats') ∧
      Kept numCheats cheats cheats' m := by
  induction h generalizing cheats with
  | nil => exact ⟨cheats, rfl, .refl hle⟩
  | @cons k cmd next last m m' hcheat hrest ih =>
    obtain ⟨cheats', hread, hkept⟩ : ∃ cheats', readCheat data numCheats folderName cmd cheats =
        some (next, cheats') ∧ Kept numCheats cheats cheats' m :=
      readCheat_of_cheatAt hcheat (by omega)
    have hle' : cheats'.length + m' ≤ numCheats := by
      rw [hkept.1]
      omega
    obtain ⟨cheats'', hread', hkept'⟩ := ih hle'
    refine ⟨cheats'', ?_, hkept.trans hkept'⟩
    rw [readFolder, hread]
    exact hread'

/-- An item at a folder. -/
theorem readItems_folder {pos cmd : ℕ} {cheats cheats' : List CheatItem} {head : BitVec 32}
    (hpos : pos < numCheats) (hhead : readWord data cmd = some head)
    (hkind : head &&& 0xF0000000#32 = 0x10000000#32) :
    readItems data numCheats pos cmd cheats = some cheats' ↔
      ∃ s s' next kept, stringAt data (cmd + 4) = some s ∧
        stringAt data (cmd + 4 + s.val.length + 1) = some s' ∧
        readFolder data numCheats (some s) (head &&& 0x00FFFFFF#32).toNat (behindStrings cmd s s')
          cheats = some (next, kept) ∧
        readItems data numCheats (pos + 1 + (head &&& 0x00FFFFFF#32).toNat) next kept =
          some cheats' := by
  rw [readItems, if_pos hpos, hhead]
  simp only [Option.bind_eq_bind, Option.bind_some, if_pos hkind, Option.bind_eq_some_iff]
  constructor
  · rintro ⟨s, hs, s', hs', ⟨next, kept⟩, hfolder, hrest⟩
    exact ⟨s, s', next, kept, hs, hs', hfolder, hrest⟩
  · rintro ⟨s, s', next, kept, hs, hs', hfolder, hrest⟩
    exact ⟨s, hs, s', hs', (next, kept), hfolder, hrest⟩

theorem readItems_cheat {pos cmd : ℕ} {cheats cheats' : List CheatItem} {head : BitVec 32}
    (hpos : pos < numCheats) (hhead : readWord data cmd = some head)
    (hkind : head &&& 0xF0000000#32 ≠ 0x10000000#32) :
    readItems data numCheats pos cmd cheats = some cheats' ↔
      ∃ next kept, readFolder data numCheats none 1 cmd cheats = some (next, kept) ∧
        readItems data numCheats (pos + 1) next kept = some cheats' := by
  rw [readItems, if_pos hpos, hhead]
  simp only [Option.bind_eq_bind, Option.bind_some, if_neg hkind, Option.bind_eq_some_iff,
    Prod.exists]

theorem readItems_head {pos cmd : ℕ} {cheats cheats' : List CheatItem} (hpos : pos < numCheats)
    (h : readItems data numCheats pos cmd cheats = some cheats') :
    ∃ head, readWord data cmd = some head := by
  rw [readItems, if_pos hpos] at h
  simp only [Option.bind_eq_bind, Option.bind_eq_some_iff] at h
  obtain ⟨head, hhead, -⟩ := h
  exact ⟨head, hhead⟩

/-- The walk over the items: by induction on how many of them are left to count. -/
theorem itemsAt_of_readItems {left pos cmd : ℕ} {cheats cheats' : List CheatItem}
    (hleft : left = numCheats - pos) (hle : cheats.length ≤ numCheats)
    (h : readItems data numCheats pos cmd cheats = some cheats') :
    ∃ m, ItemsAt data left cmd m ∧ Kept numCheats cheats cheats' m := by
  induction left using Nat.strong_induction_on generalizing pos cmd cheats with
  | _ left ih =>
  cases left with
  | zero =>
    rw [readItems, if_neg (by omega), Option.some.injEq] at h
    subst h
    exact ⟨0, .done, .refl hle⟩
  | succ left =>
    have hpos : pos < numCheats := by omega
    obtain ⟨head, hhead⟩ := readItems_head hpos h
    by_cases hkind : head &&& 0xF0000000#32 = 0x10000000#32
    · obtain ⟨s, s', next, kept, hs, hs', hfolder, hrest⟩ :=
        (readItems_folder hpos hhead hkind).1 h
      obtain ⟨m, hats, hkept⟩ := cheatsAt_of_readFolder hle hfolder
      obtain ⟨m', hitems, hkept'⟩ := ih (left - (head &&& 0x00FFFFFF#32).toNat) (by omega)
        (by omega) hkept.2 hrest
      exact ⟨m + m', .folder hhead hkind ⟨s, s', hs, hs', rfl⟩ hats hitems, hkept.trans hkept'⟩
    · obtain ⟨next, kept, hcheat, hrest⟩ := (readItems_cheat hpos hhead hkind).1 h
      obtain ⟨m, hat, hkept⟩ := cheatsAt_of_readFolder hle hcheat
      obtain ⟨m', hitems, hkept'⟩ := ih left (by omega) (by omega) hkept.2 hrest
      exact ⟨m + m', .cheat hhead hkind hat hitems, hkept.trans hkept'⟩

theorem readItems_of_itemsAt {left pos cmd m : ℕ} {cheats : List CheatItem}
    (h : ItemsAt data left cmd m) (hleft : left = numCheats - pos)
    (hle : cheats.length + m ≤ numCheats) :
    ∃ cheats', readItems data numCheats pos cmd cheats = some cheats' := by
  induction h generalizing pos cheats with
  | done =>
    refine ⟨cheats, ?_⟩
    rw [readItems, if_neg (by omega)]
  | @cheat left cmd next m m' head hhead hkind hcheat hrest ih =>
    obtain ⟨kept, hread, hkept⟩ : ∃ kept, readFolder data numCheats none 1 cmd cheats =
        some (next, kept) ∧ Kept numCheats cheats kept m := readFolder_of_cheatsAt hcheat (by omega)
    have hle' : kept.length + m' ≤ numCheats := by
      rw [hkept.1]
      omega
    obtain ⟨cheats', hitems⟩ := ih (show left = numCheats - (pos + 1) by omega) hle'
    exact ⟨cheats', (readItems_cheat (by omega) hhead hkind).2 ⟨next, kept, hread, hitems⟩⟩
  | @folder left cmd place next m m' head hhead hkind hstrings hcheats hrest ih =>
    obtain ⟨s, s', hs, hs', rfl⟩ := hstrings
    obtain ⟨kept, hread, hkept⟩ : ∃ kept, readFolder data numCheats (some s)
        (head &&& 0x00FFFFFF#32).toNat _ cheats = some (next, kept) ∧ Kept numCheats cheats kept m :=
      readFolder_of_cheatsAt hcheats (by omega)
    have hle' : kept.length + m' ≤ numCheats := by
      rw [hkept.1]
      omega
    obtain ⟨cheats', hitems⟩ :=
      ih (show _ = numCheats - (pos + 1 + (head &&& 0x00FFFFFF#32).toNat) by omega) hle'
    exact ⟨cheats', (readItems_folder (by omega) hhead hkind).2
      ⟨s, s', next, kept, hs, hs', hread, hitems⟩⟩

/-- The codes of a buffer are read and kept within their arrays exactly if they are laid out so. -/
theorem parseCodes_isSome (data : List (BitVec 8)) (encOffset : ℕ) :
    (∃ r, parseCodes data encOffset = some r) ↔ CodesAt data encOffset := by
  simp only [parseCodes, Option.bind_eq_bind, Option.bind_eq_some_iff, Option.pure_def]
  constructor
  · rintro ⟨r, title, htitle, h⟩
    split_ifs at h with hsize
    obtain ⟨count, hcount, cheats, hitems, -⟩ := Option.bind_eq_some_iff.1 h
      |>.imp fun count h => h.imp_right Option.bind_eq_some_iff.1
    obtain ⟨m, hat, hkept⟩ := itemsAt_of_readItems (Nat.sub_zero _).symm (Nat.zero_le _) hitems
    refine ⟨title, count, m, htitle, hsize, hcount, hat, ?_⟩
    have hlength := hkept.1
    rw [List.length_nil, Nat.zero_add] at hlength
    exact hlength ▸ hkept.2
  · rintro ⟨title, count, m, htitle, hsize, hcount, hat, hkept⟩
    obtain ⟨cheats, hitems⟩ : ∃ cheats, readItems data _ 0 _ [] = some cheats :=
      readItems_of_itemsAt hat (Nat.sub_zero _).symm (by rw [List.length_nil]; omega)
    refine ⟨(title, cheats), title, htitle, ?_⟩
    rw [if_pos hsize]
    simp only [hcount, hitems, Option.bind_some]

end Read

/-- What has been loaded fits into its buffer, and if it is all there, so do its codes. -/
def CodesFit (encrypted : Bool) (found : Found) : Prop :=
  found.loaded.length ≤ found.capacity ∧
    (found.loaded.length = found.dataSize.toNat →
      CodesAt (found.buffer encrypted) found.encOffset.toNat)

theorem getCodes_isSome (encrypted : Bool) (found : Found) :
    (∃ r, found.getCodes encrypted = some r) ↔ CodesFit encrypted found := by
  rw [Found.getCodes, CodesFit, ← parseCodes_isSome]
  split_ifs with hcapacity hshort
  · exact ⟨nofun, fun h => absurd h.1 (by omega)⟩
  · exact ⟨fun _ => ⟨by omega, fun h => absurd h hshort⟩, fun _ => ⟨none, rfl⟩⟩
  · simp only [Option.map_eq_some_iff]
    constructor
    · rintro ⟨r, codes, hcodes, -⟩
      exact ⟨by omega, fun _ => ⟨codes, hcodes⟩⟩
    · rintro ⟨-, h⟩
      obtain ⟨codes, hcodes⟩ := h (not_not.1 hshort)
      exact ⟨some codes, codes, hcodes, rfl⟩

/-! ### The whole export -/

variable (encrypted : Bool) (gameCode content : List (BitVec 8))

/-- The export comes to an end and stays within its arrays, whatever is found. -/
def ExportSafe : Prop :=
  ∀ fat, (∃ n found, search encrypted gameCode content fat n = some found) ∧
    ∀ n found, search encrypted gameCode content fat n = some (some found) →
      ∃ r, found.getCodes encrypted = some r

/-- The entry at which the search ends. -/
def FirstStop (k : ℕ) : Prop :=
  EntryStops gameCode (dirEntry content encrypted k) ∧
    ∀ j < k, ¬ EntryStops gameCode (dirEntry content encrypted j)

/-- What is found at an entry. -/
def foundAt (k : ℕ) : Option Found :=
  searchEnd encrypted gameCode ⟨content, directoryEnd encrypted k, false⟩
    (dirEntry content encrypted k) (dirEntry content encrypted (k + 1))

section Loaded

variable {found found' : Found}

/-- Two results of a search that differ in nothing that `getCodes` reads. -/
structure SameFound (found found' : Found) : Prop where
  data : found.file.data = found'.file.data
  rest : found.file.data.drop found.file.pos = found'.file.data.drop found'.file.pos
  fat : found.fat = found'.fat
  dataSize : found.dataSize = found'.dataSize
  encOffset : found.encOffset = found'.encOffset

theorem SameFound.loaded (h : SameFound found found') : found.loaded = found'.loaded := by
  rw [Found.loaded, Found.loaded, h.fat, h.encOffset, h.dataSize]
  split_ifs
  · rw [ByteFile.readData, ByteFile.readData, h.rest]
  · rw [ByteFile.readData, ByteFile.readData, ByteFile.seek, ByteFile.seek, h.data]

theorem SameFound.codesFit (h : SameFound found found') :
    CodesFit encrypted found ↔ CodesFit encrypted found' := by
  rw [CodesFit, CodesFit, Found.capacity, Found.capacity, Found.buffer, Found.buffer, h.loaded, h.fat,
    h.dataSize, h.encOffset]

end Loaded

variable {encrypted gameCode content}

theorem search_eq_some {fat : FatR4} {n : ℕ} {r : Option Found}
    (h : search encrypted gameCode content fat n = some r) :
    ∃ k s, FirstStop encrypted gameCode content k ∧ AtEntry content encrypted k s ∧
      r = searchEnd encrypted gameCode s.file s.fat s.fatTmp := by
  simp only [search, Option.map_eq_some_iff] at h
  obtain ⟨s, hs, rfl⟩ := h
  obtain ⟨k, rfl, hstop, hbefore⟩ := runWhile_eq_some hs
  rw [not_not] at hstop
  have hentry := iterate_loadEntry encrypted content fat
  refine ⟨k, _, ⟨?_, fun j hj => ?_⟩, hentry k, rfl⟩
  · rw [← (hentry k).fat]
    exact hstop
  · rw [← (hentry j).fat]
    exact hbefore j hj

theorem FirstStop.unique {k k' : ℕ} (h : FirstStop encrypted gameCode content k)
    (h' : FirstStop encrypted gameCode content k') : k = k' := by
  rcases Nat.lt_trichotomy k k' with hlt | heq | hgt
  · exact absurd h.1 (h'.2 k hlt)
  · exact heq
  · exact absurd h'.1 (h.2 k' hgt)

/-- The file is kept with what is found and does not change it. -/
theorem searchEnd_file (file file' : ByteFile (BitVec 8)) (fat fatTmp : FatR4) :
    searchEnd encrypted gameCode file fat fatTmp =
      (searchEnd encrypted gameCode file' fat fatTmp).map fun found => { found with file } := by
  rw [searchEnd, searchEnd]
  dsimp only
  split_ifs <;> rfl

theorem search_codesFit {k n : ℕ} {fat : FatR4} {r : Option Found}
    (hk : FirstStop encrypted gameCode content k)
    (h : search encrypted gameCode content fat n = some r) :
    (∀ found, r = some found → CodesFit encrypted found) ↔
      ∀ found, foundAt encrypted gameCode content k = some found → CodesFit encrypted found := by
  obtain ⟨k', s, hk', ⟨hdata, hfile, hfat, htmp⟩, rfl⟩ := search_eq_some h
  rw [hk'.unique hk] at hfile hfat htmp
  rw [hfat, htmp, searchEnd_file s.file ⟨content, directoryEnd encrypted k, false⟩, ← foundAt]
  have hsame (found : Found)
      (hfound : found.file = ⟨content, directoryEnd encrypted k, false⟩) :
      CodesFit encrypted { found with file := s.file } ↔ CodesFit encrypted found := by
    refine SameFound.codesFit encrypted ⟨?_, ?_, rfl, rfl, rfl⟩
    · rw [hfound]
      exact hdata
    · rw [hfound, hdata]
      exact hfile
  cases hat : foundAt encrypted gameCode content k with
  | none => simp only [Option.map_none, reduceCtorEq, false_implies, implies_true]
  | some found =>
    have hfound : found.file = ⟨content, directoryEnd encrypted k, false⟩ := by
      rw [foundAt, searchEnd] at hat
      dsimp only at hat
      split_ifs at hat <;> rw [← Option.some.inj hat]
    simp only [Option.map_some, Option.some.injEq, forall_eq']
    exact hsame found hfound

/-- An export is safe exactly if its directory gets to an entry of the game or to its end marker, and
the codes that are found there fit. -/
theorem exportSafe_iff (encrypted : Bool) (gameCode content : List (BitVec 8)) :
    ExportSafe encrypted gameCode content ↔
      (∃ k, EntryStops gameCode (dirEntry content encrypted k)) ∧
        ∀ k, FirstStop encrypted gameCode content k →
          ∀ found, foundAt encrypted gameCode content k = some found → CodesFit encrypted found := by
  constructor
  · intro h
    refine ⟨(search_terminates_iff encrypted gameCode content (List.replicate 16 0)).1 (h _).1, ?_⟩
    intro k hk
    obtain ⟨⟨n, r, hr⟩, hsafe⟩ := h (List.replicate 16 0)
    refine (search_codesFit hk hr).1 fun found hfound => ?_
    rw [← getCodes_isSome]
    exact hsafe n found (hfound ▸ hr)
  · rintro ⟨hstops, hfit⟩ fat
    refine ⟨(search_terminates_iff encrypted gameCode content fat).2 hstops, ?_⟩
    intro n found hfound
    obtain ⟨k, -, hk, -⟩ := search_eq_some hfound
    rw [getCodes_isSome]
    exact (search_codesFit hk hfound).2 (hfit k hk) found rfl

section Unclosed

/-- A database whose directory is not closed. -/
def unclosed : List (BitVec 8) :=
  ['R', '4', ' ', 'C', 'h', 'e', 'a', 't', 'C', 'o', 'd', 'e'].map cchar ++
    List.replicate 260 (cchar 'A')

theorem length_unclosed : unclosed.length = 272 := by
  rw [unclosed, List.length_append, List.length_replicate, List.length_map]
  rfl

theorem plainEntry_unclosed (j : ℕ) : plainEntry unclosed j = List.replicate 16 (cchar 'A') := by
  induction j with
  | zero => decide
  | succ j ih =>
    have hbehind : unclosed.length ≤ 0x100 + 16 * (j + 1) := by
      rw [length_unclosed]
      omega
    have hdrop : unclosed.drop (0x100 + 16 * (j + 1)) = [] := List.drop_eq_nil_of_le hbehind
    rw [plainEntry, hdrop, ih]
    rfl

/-- Behind the end of the file, the last entry comes again and again. -/
theorem unclosed_not_exportSafe : ¬ ExportSafe false (List.replicate 4 (cchar 'B')) unclosed := by
  intro h
  obtain ⟨k, hk⟩ := (search_terminates_iff _ _ _ []).1 (h []).1
  change EntryStops _ (plainEntry unclosed k) at hk
  rw [plainEntry_unclosed] at hk
  revert hk
  decide

end Unclosed

end Desmume.Cheat
