import Desmume.Library.CString
import Desmume.Library.LittleEndian
import Mathlib.Tactic.Common

/-! Saves in the format of no$gba: the unpacking of a file into a buffer, and what of a file keeps it
within the two. -/

namespace Desmume.Backup
open Library

/-- `no_GBA_HEADER_ID`. -/
def noGbaHeaderId : List (BitVec 8) :=
  ['N', 'o', 'c', 'a', 's', 'h', 'G', 'b', 'a', 'B', 'a', 'c', 'k', 'u', 'p', 'M', 'e', 'd', 'i', 'a',
    'S', 'a', 'v', 'D', 'a', 't', 'a', 'F', 'i', 'l', 'e'].map cchar

/-- `no_GBA_HEADER_SRAM_ID`. -/
def noGbaHeaderSramId : List (BitVec 8) := ['S', 'R', 'A', 'M'].map cchar

section Unpack

variable (limit : ℕ)

/-- A byte is written behind the ones before; there is no result if it is out of the buffer. -/
def putDst (out : List (BitVec 8)) (b : BitVec 8) : Option (List (BitVec 8)) :=
  if out.length < limit then some (out ++ [b]) else none

/-- One byte so many times. -/
def repeatByte (b : BitVec 8) (n : ℕ) (out : List (BitVec 8)) : Option (List (BitVec 8)) :=
  (List.replicate n b).foldlM (putDst limit) out

/-- The next bytes of the file; there is no result if it has less of them. -/
def copySrc (src : List (BitVec 8)) (n : ℕ) (out : List (BitVec 8)) : Option (List (BitVec 8)) :=
  if n ≤ src.length then (src.take n).foldlM (putDst limit) out else none

/-- The packed method, on what is left of the file: the positions are below the size of the file and
do not wrap. -/
def unpackPacked (src out : List (BitVec 8)) : Option (List (BitVec 8)) :=
  match src with
  | [] => none
  | cc :: src =>
    if cc = 0 then some out
    else if cc = 0x80 then
      match src with
      | b :: low :: high :: src => do
        let out ← repeatByte limit b (high ++ low).toNat out
        unpackPacked src out
      | _ => none
    else if 0x80 < cc then
      match src with
      | b :: src => do
        let out ← repeatByte limit b (cc - 0x80).toNat out
        unpackPacked src out
      | [] => none
    else do
      let out ← copySrc limit src cc.toNat out
      unpackPacked (src.drop cc.toNat) out
termination_by src.length
decreasing_by
  all_goals
    simp only [List.length_drop, List.length_cons]
    omega

end Unpack

section Header

variable (src : List (BitVec 8))

def srcWord (offset : ℕ) : BitVec 32 := BitVec.ofNat 32 (ofLeBytes ((src.drop offset).take 4))

def compressMethod : BitVec 32 := srcWord src 0x44

/-- The size of the contents, which the header announces at a place that depends on the method. -/
def announcedSize : BitVec 32 :=
  if compressMethod src = 0 then srcWord src 0x48 else srcWord src 0x4C

/-- What `no_gba_unpackSAV` checks of a header, as the value it returns if not. -/
def checkHeader : Option ℕ :=
  if src.length < 0x50 then some 1
  else if src.take 0x1F ≠ noGbaHeaderId then some 2
  else if src[0x1F]? ≠ some 0x1A then some 2
  else if (src.drop 0x40).take 4 ≠ noGbaHeaderSramId then some 3
  else if compressMethod src ≠ 0 ∧ compressMethod src ≠ 1 then some 200
  else none

/-- `no_gba_unpackSAV`: the value it returns and the contents, whose length is the new `size`; there is
no result if something is read behind the file or written behind `limit`. -/
def noGbaUnpackSAV (limit : ℕ) : Option (ℕ × List (BitVec 8)) :=
  match checkHeader src with
  | some ret => some (ret, [])
  | none => do
    let out ←
      if compressMethod src = 0 then copySrc limit (src.drop 0x4C) (announcedSize src).toNat []
      else unpackPacked limit (src.drop 0x50) []
    return (0, out)

end Header

/-- The callers of `no_gba_unpackSAV`. -/
inductive SavCaller where
  | importNoGba
  | noGbaUnpack
deriving DecidableEq

/-- What a caller allocates: a fixed size, or the result of `get_save_nogba_size`. -/
def SavCaller.outSize (src : List (BitVec 8)) : SavCaller → ℕ
  | importNoGba => 8 * 1024 * 1024 / 8
  | noGbaUnpack => (announcedSize src).toNat

/-- Up to where may be written: the announced size, in the buffer of the caller. -/
def SavCaller.limit (src : List (BitVec 8)) (caller : SavCaller) : ℕ :=
  min (announcedSize src).toNat (caller.outSize src)

/-- The items of a packed stream. -/
inductive SavItem where
  | long (b : BitVec 8) (n : BitVec 16)
  | short (b : BitVec 8) (n : BitVec 7) (hn : n ≠ 0)
  | plain (bs : List (BitVec 8)) (hpos : 0 < bs.length) (hlt : bs.length < 0x80)

namespace SavItem

def packed : SavItem → List (BitVec 8)
  | long b n => [0x80, b, n.setWidth 8, (n >>> 8).setWidth 8]
  | short b n _ => [0x80 + n.setWidth 8, b]
  | plain bs _ _ => BitVec.ofNat 8 bs.length :: bs

def expansion : SavItem → List (BitVec 8)
  | long b n => List.replicate n.toNat b
  | short b n _ => List.replicate n.toNat b
  | plain bs _ _ => bs

end SavItem

def packedStream (items : List SavItem) : List (BitVec 8) := items.flatMap SavItem.packed ++ [0]

def streamExpansion (items : List SavItem) : List (BitVec 8) := items.flatMap SavItem.expansion

section Loops

variable {limit : ℕ} {src out out' : List (BitVec 8)}

theorem foldlM_putDst (bs : List (BitVec 8)) (hout : out.length ≤ limit) :
    bs.foldlM (putDst limit) out = some out' ↔ out' = out ++ bs ∧ out'.length ≤ limit := by
  induction bs generalizing out with
  | nil =>
    rw [List.foldlM_nil, List.append_nil]
    constructor
    · intro h
      obtain rfl := Option.some.inj h
      exact ⟨rfl, hout⟩
    · rintro ⟨rfl, -⟩
      rfl
  | cons b bs ih =>
    rw [List.foldlM_cons, putDst]
    split_ifs with hlt
    · have hnext : (out ++ [b]).length ≤ limit := by
        rw [List.length_append, List.length_singleton]
        exact hlt
      rw [Option.bind_eq_bind, Option.bind_some, ih hnext, List.append_assoc, List.singleton_append]
    · refine ⟨nofun, ?_⟩
      rintro ⟨rfl, h⟩
      rw [List.length_append, List.length_cons] at h
      omega

theorem room_bind {c : Prop} [Decidable c] {α β : Type} (x : α) (f : α → Option β) :
    ((if c then some x else none) >>= f) = if c then f x else none := by
  split_ifs <;> rfl

theorem repeatByte_of_le {b : BitVec 8} {n : ℕ} (hout : out.length ≤ limit) :
    repeatByte limit b n out =
      if (out ++ List.replicate n b).length ≤ limit then some (out ++ List.replicate n b)
      else none := by
  split_ifs with h
  · exact (foldlM_putDst _ hout).2 ⟨rfl, h⟩
  · rw [Option.eq_none_iff_forall_not_mem]
    rintro out' hout'
    obtain ⟨rfl, hle⟩ := (foldlM_putDst _ hout).1 hout'
    exact h hle

theorem copySrc_eq_some {n : ℕ} (hout : out.length ≤ limit) :
    copySrc limit src n out = some out' ↔
      n ≤ src.length ∧ out' = out ++ src.take n ∧ out'.length ≤ limit := by
  rw [copySrc]
  split_ifs with h
  · rw [foldlM_putDst _ hout]
    exact ⟨fun h' => ⟨h, h'⟩, And.right⟩
  · exact ⟨nofun, fun h' => absurd h'.1 h⟩

theorem copySrc_append {bs : List (BitVec 8)} (hout : out.length ≤ limit) :
    copySrc limit (bs ++ src) bs.length out =
      if (out ++ bs).length ≤ limit then some (out ++ bs) else none := by
  split_ifs with h
  · rw [copySrc_eq_some hout, List.take_left]
    refine ⟨?_, rfl, h⟩
    rw [List.length_append]
    exact Nat.le_add_right ..
  · rw [Option.eq_none_iff_forall_not_mem]
    rintro out' hout'
    obtain ⟨-, rfl, hle⟩ := (copySrc_eq_some hout).1 hout'
    rw [List.take_left] at hle
    exact h hle

theorem unpackPacked_zero : unpackPacked limit (0 :: src) out = some out := by
  rw [unpackPacked.eq_def]
  exact if_pos rfl

/-- An item is unpacked to its expansion, if there is room for it. -/
theorem unpackPacked_item (item : SavItem) (hout : out.length ≤ limit) :
    unpackPacked limit (item.packed ++ src) out =
      if (out ++ item.expansion).length ≤ limit then
        unpackPacked limit src (out ++ item.expansion)
      else none := by
  cases item with
  | long b n =>
    have hn : (n >>> 8).setWidth 8 ++ n.setWidth 8 = n := by
      ext i hi
      simp only [BitVec.getElem_append, BitVec.getElem_setWidth, BitVec.getLsbD_ushiftRight]
      split_ifs with hlow
      · exact BitVec.getLsbD_eq_getElem hi
      · rw [Nat.add_sub_cancel' (Nat.le_of_not_lt hlow)]
        exact BitVec.getLsbD_eq_getElem hi
    simp only [SavItem.packed, SavItem.expansion, List.cons_append, List.nil_append]
    rw [unpackPacked.eq_def]
    dsimp only
    rw [if_neg (by decide), if_pos rfl, hn, repeatByte_of_le hout,
      room_bind]
    rfl
  | short b n hn =>
    have hcc : (0x80 + n.setWidth 8 : BitVec 8) ≠ 0 ∧ (0x80 + n.setWidth 8 : BitVec 8) ≠ 0x80 ∧
        (0x80 : BitVec 8) < 0x80 + n.setWidth 8 ∧
        ((0x80 + n.setWidth 8 : BitVec 8) - 0x80).toNat = n.toNat := by
      revert n
      decide
    obtain ⟨hzero, hlong, hshort, hcount⟩ := hcc
    simp only [SavItem.packed, SavItem.expansion, List.cons_append, List.nil_append]
    rw [unpackPacked.eq_def]
    dsimp only
    rw [if_neg hzero, if_neg hlong, if_pos hshort, hcount, repeatByte_of_le hout,
      room_bind]
    rfl
  | plain bs hpos hlt =>
    have hcount : (BitVec.ofNat 8 bs.length).toNat = bs.length := by
      rw [BitVec.toNat_ofNat]
      omega
    have hzero : BitVec.ofNat 8 bs.length ≠ 0 := by
      intro h
      rw [h] at hcount
      exact absurd hcount hpos.ne
    have hlow : ¬ (0x80 : BitVec 8) ≤ BitVec.ofNat 8 bs.length := by
      rw [BitVec.le_def, hcount]
      exact Nat.not_le.2 hlt
    simp only [SavItem.packed, SavItem.expansion, List.cons_append]
    rw [unpackPacked.eq_def]
    dsimp only
    rw [if_neg hzero, if_neg fun h => hlow (BitVec.le_of_eq h.symm),
      if_neg fun h => hlow (BitVec.le_of_lt h), hcount, copySrc_append hout, List.drop_left,
      room_bind]
    rfl

theorem SavItem.packed_ne_nil (item : SavItem) : 0 < item.packed.length := by
  cases item <;> exact Nat.succ_pos _

theorem short_of_lt : ∀ cc : BitVec 8, 0x80 < cc →
    (cc - 0x80).setWidth 7 ≠ 0 ∧ 0x80 + ((cc - 0x80).setWidth 7).setWidth 8 = cc := by
  decide

/-- Where unpacking has a result, the stream ends or goes on with an item. -/
theorem unpackPacked_cases (h : unpackPacked limit src out = some out') (hout : out.length ≤ limit) :
    (∃ rest, src = 0 :: rest) ∨ ∃ (item : SavItem) (rest : List (BitVec 8)),
      src = item.packed ++ rest := by
  cases src with
  | nil =>
    rw [unpackPacked.eq_def] at h
    cases h
  | cons cc src =>
    rw [unpackPacked.eq_def] at h
    dsimp only at h
    split_ifs at h with hzero hlong hshort
    · exact .inl ⟨src, by rw [hzero]⟩
    · match src, h with
      | b :: low :: high :: src, _ =>
        refine .inr ⟨.long b (high ++ low), src, ?_⟩
        have hlow : (high ++ low).setWidth 8 = low := by
          rw [BitVec.setWidth_append]
          simp
        have hhigh : ((high ++ low) >>> 8).setWidth 8 = high := by
          ext i hi
          rw [BitVec.getElem_setWidth, BitVec.getLsbD_ushiftRight, BitVec.getLsbD_append,
            if_neg (by omega), Nat.add_sub_cancel_left]
          exact BitVec.getLsbD_eq_getElem hi
        simp only [SavItem.packed, hlow, hhigh, hlong, List.cons_append, List.nil_append]
    · match src, h with
      | b :: src, _ =>
        have hcc := short_of_lt cc hshort
        refine .inr ⟨.short b ((cc - 0x80).setWidth 7) hcc.1, src, ?_⟩
        simp only [SavItem.packed, hcc.2, List.cons_append, List.nil_append]
    · obtain ⟨out'', hcopy, -⟩ := Option.bind_eq_some_iff.1 h
      obtain ⟨hle, -⟩ := (copySrc_eq_some hout).1 hcopy
      have hlength : (src.take cc.toNat).length = cc.toNat := List.length_take_of_le hle
      have hpos : 0 < cc.toNat := by
        rw [Nat.pos_iff_ne_zero]
        intro h0
        exact hzero (BitVec.eq_of_toNat_eq h0)
      have hlt : cc.toNat < 0x80 := by
        rw [BitVec.lt_def] at hshort
        have hne : cc.toNat ≠ 0x80 := fun h => hlong (BitVec.eq_of_toNat_eq h)
        exact lt_of_le_of_ne (Nat.le_of_not_lt hshort) hne
      refine .inr ⟨.plain (src.take cc.toNat) (by rwa [hlength]) (by rwa [hlength]),
        src.drop cc.toNat, ?_⟩
      simp only [SavItem.packed, hlength, BitVec.ofNat_toNat, BitVec.setWidth_eq, List.cons_append,
        List.take_append_drop]

theorem unpackPacked_eq_some (hout : out.length ≤ limit) :
    unpackPacked limit src out = some out' ↔ ∃ items rest, src = packedStream items ++ rest ∧
      out' = out ++ streamExpansion items ∧ out'.length ≤ limit := by
  constructor
  · intro h
    induction hlength : src.length using Nat.strong_induction_on generalizing src out with
    | _ n ih =>
    rcases unpackPacked_cases h hout with ⟨rest, rfl⟩ | ⟨item, rest, rfl⟩
    · rw [unpackPacked_zero, Option.some.injEq] at h
      subst h
      exact ⟨[], rest, rfl, (List.append_nil out).symm, hout⟩
    · rw [unpackPacked_item item hout] at h
      split_ifs at h with hroom
      have hlt : rest.length < n := by
        rw [← hlength, List.length_append]
        exact Nat.lt_add_of_pos_left item.packed_ne_nil
      obtain ⟨items, rest', rfl, rfl, hle⟩ := ih rest.length hlt hroom h rfl
      refine ⟨item :: items, rest', ?_, ?_, hle⟩
      · simp only [packedStream, List.flatMap_cons, List.append_assoc]
      · simp only [streamExpansion, List.flatMap_cons, List.append_assoc]
  · rintro ⟨items, rest, rfl, rfl, hle⟩
    induction items generalizing out with
    | nil =>
      rw [streamExpansion, List.flatMap_nil, List.append_nil]
      exact unpackPacked_zero
    | cons item items ih =>
      rw [streamExpansion, List.flatMap_cons, ← List.append_assoc] at hle ⊢
      rw [packedStream, List.flatMap_cons, List.append_assoc, List.append_assoc,
        unpackPacked_item item hout, if_pos, ← List.append_assoc]
      · apply ih
        · rw [List.length_append] at hle
          exact (Nat.le_add_right ..).trans hle
        · exact hle
      · rw [List.length_append] at hle
        exact (Nat.le_add_right ..).trans hle

end Loops

section Bounds

variable (caller : SavCaller) (src : List (BitVec 8))

/-- The header is the one of a packed save, with these items behind it. -/
def IsPacked (items : List SavItem) : Prop :=
  checkHeader src = none ∧ compressMethod src = 1 ∧
    ∃ rest, src.drop 0x50 = packedStream items ++ rest

/-- What unpacking promises: it keeps within the file and within the announced size, and it gets the
expansion of a stream that has the announced size. -/
def UnpacksSafely : Prop :=
  (∃ r, noGbaUnpackSAV src (caller.limit src) = some r) ∧
    ∀ items, IsPacked src items → (streamExpansion items).length = (announcedSize src).toNat →
      noGbaUnpackSAV src (caller.limit src) = some (0, streamExpansion items)

/-- The contents of a file are in it, and they have room. -/
def SavFits : Prop :=
  checkHeader src = none →
    if compressMethod src = 0 then
      0x4C + (announcedSize src).toNat ≤ src.length ∧ (announcedSize src).toNat ≤ caller.outSize src
    else ∃ items, IsPacked src items ∧ (streamExpansion items).length ≤ caller.limit src

variable {src}

theorem length_of_checkHeader (h : checkHeader src = none) : 0x50 ≤ src.length := by
  rw [checkHeader] at h
  split_ifs at h with hlength
  exact Nat.le_of_not_lt hlength

theorem method_of_checkHeader (h : checkHeader src = none) (hmethod : compressMethod src ≠ 0) :
    compressMethod src = 1 := by
  rw [checkHeader] at h
  split_ifs at h with _ _ _ _ hbad
  exact not_not.1 fun hne => hbad ⟨hmethod, hne⟩

theorem length_nil_le (limit : ℕ) : ([] : List (BitVec 8)).length ≤ limit := Nat.zero_le limit

theorem unpackSAV_unpacked {limit : ℕ} (h : checkHeader src = none) (hmethod : compressMethod src = 0) :
    (∃ r, noGbaUnpackSAV src limit = some r) ↔
      0x4C + (announcedSize src).toNat ≤ src.length ∧ (announcedSize src).toNat ≤ limit := by
  have hlength := length_of_checkHeader h
  have hrun : (∃ r, noGbaUnpackSAV src limit = some r) ↔
      ∃ out, copySrc limit (src.drop 0x4C) (announcedSize src).toNat [] = some out := by
    simp only [noGbaUnpackSAV, h, if_pos hmethod, Option.bind_eq_bind, Option.bind_eq_some_iff,
      Option.pure_def, Option.some.injEq]
    constructor
    · rintro ⟨r, out, hout, -⟩
      exact ⟨out, hout⟩
    · rintro ⟨out, hout⟩
      exact ⟨_, out, hout, rfl⟩
  rw [hrun]
  simp only [copySrc_eq_some (length_nil_le limit), List.length_drop, List.nil_append]
  constructor
  · rintro ⟨out, hle, rfl, hlimit⟩
    rw [List.length_take_of_le (by rwa [List.length_drop])] at hlimit
    exact ⟨by omega, hlimit⟩
  · rintro ⟨hle, hlimit⟩
    refine ⟨_, by omega, rfl, ?_⟩
    rw [List.length_take]
    exact (Nat.min_le_left ..).trans hlimit

theorem unpackSAV_packed {limit : ℕ} {r : ℕ × List (BitVec 8)} (h : checkHeader src = none)
    (hmethod : compressMethod src = 1) :
    noGbaUnpackSAV src limit = some r ↔
      ∃ items, IsPacked src items ∧ r = (0, streamExpansion items) ∧
        (streamExpansion items).length ≤ limit := by
  have hne : compressMethod src ≠ 0 := by
    rw [hmethod]
    decide
  simp only [noGbaUnpackSAV, h, if_neg hne, Option.bind_eq_bind, Option.bind_eq_some_iff,
    Option.pure_def, Option.some.injEq, unpackPacked_eq_some (length_nil_le limit), List.nil_append]
  constructor
  · rintro ⟨out, ⟨items, rest, hsrc, rfl, hle⟩, rfl⟩
    exact ⟨items, ⟨h, hmethod, rest, hsrc⟩, rfl, hle⟩
  · rintro ⟨items, ⟨-, -, rest, hsrc⟩, rfl, hle⟩
    exact ⟨_, ⟨items, rest, hsrc, rfl, hle⟩, rfl⟩

/-- A file has one expansion. -/
theorem IsPacked.expansion_eq {items items' : List SavItem} (h : IsPacked src items)
    (h' : IsPacked src items') : streamExpansion items = streamExpansion items' := by
  have hheader := h.1
  have hmethod := h.2.1
  have hrun := (unpackSAV_packed hheader hmethod).2 ⟨items, h, rfl, Nat.le_max_left _
    (streamExpansion items').length⟩
  have hrun' := (unpackSAV_packed hheader hmethod).2 ⟨items', h', rfl, Nat.le_max_right
    (streamExpansion items).length _⟩
  rw [hrun] at hrun'
  exact congrArg Prod.snd (Option.some.inj hrun')

/-- Unpacking keeps its promises exactly if the contents are in the file and have room. -/
theorem unpacksSafely_iff (caller : SavCaller) (src : List (BitVec 8)) :
    UnpacksSafely caller src ↔ SavFits caller src := by
  constructor
  · rintro ⟨⟨r, hr⟩, -⟩ hheader
    split_ifs with hmethod
    · obtain ⟨hle, hlimit⟩ := (unpackSAV_unpacked hheader hmethod).1 ⟨r, hr⟩
      exact ⟨hle, hlimit.trans (Nat.min_le_right ..)⟩
    · obtain ⟨items, hitems, -, hle⟩ :=
        (unpackSAV_packed hheader (method_of_checkHeader hheader hmethod)).1 hr
      exact ⟨items, hitems, hle⟩
  · intro hfits
    constructor
    · cases hheader : checkHeader src with
      | some ret => exact ⟨(ret, []), by rw [noGbaUnpackSAV, hheader]⟩
      | none =>
        have hcontents := hfits hheader
        split_ifs at hcontents with hmethod
        · exact (unpackSAV_unpacked hheader hmethod).2
            ⟨hcontents.1, Nat.le_min.2 ⟨Nat.le_refl _, hcontents.2⟩⟩
        · obtain ⟨items, hitems, hle⟩ := hcontents
          exact ⟨_, (unpackSAV_packed hheader hitems.2.1).2 ⟨items, hitems, rfl, hle⟩⟩
    · intro items hitems _
      have hcontents := hfits hitems.1
      have hne : compressMethod src ≠ 0 := by
        rw [hitems.2.1]
        decide
      rw [if_neg hne] at hcontents
      obtain ⟨items', hitems', hle⟩ := hcontents
      rw [hitems'.expansion_eq hitems] at hle
      exact (unpackSAV_packed hitems.1 hitems.2.1).2 ⟨items, hitems, rfl, hle⟩

/-- A header that announces a packed stream, and nothing behind it. -/
def truncatedSav : List (BitVec 8) :=
  noGbaHeaderId ++ [0x1A] ++ List.replicate 0x20 0 ++ noGbaHeaderSramId ++ [1, 0, 0, 0] ++
    List.replicate 8 0

/-- The first byte of the stream is read behind the end of the file. -/
theorem truncatedSav_not_unpacksSafely : ¬ UnpacksSafely .noGbaUnpack truncatedSav := by
  rintro ⟨⟨r, hr⟩, -⟩
  have hheader : checkHeader truncatedSav = none := by decide
  have hmethod : compressMethod truncatedSav = 1 := by decide
  obtain ⟨items, ⟨-, -, rest, hsrc⟩, -⟩ := (unpackSAV_packed hheader hmethod).1 hr
  have hend : truncatedSav.drop 0x50 = [] := by decide
  rw [hend, packedStream, List.append_assoc] at hsrc
  have hlength := congrArg List.length hsrc
  rw [List.length_append, List.length_append, List.length_singleton, List.length_nil] at hlength
  omega

end Bounds

end Desmume.Backup
