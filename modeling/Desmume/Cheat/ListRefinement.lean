import Desmume.Cheat.ListOps
import Mathlib.Data.List.InsertIdx

/-! The cheat list against the list of contents: an operation that succeeds does the same to both, one
that fails changes nothing, as long as no CodeBreaker code is added and the codes fit. -/

namespace Desmume.Cheat
open Library

/-- What an operation promises. -/
structure Meets (list : List CheatItem) (op : CheatOp) (r : CheatResult) (list' : List CheatItem) :
    Prop where
  refused : r.ok = false → list' = list
  accepted : r.ok = true → list'.map CheatItem.content = op.apply (list.map CheatItem.content)
  position : r.ok = true → ∀ pos, op.position = some pos → pos.toNat < list.length
  others : ∀ pos, op.updated = some pos → ∀ j, pos.toNat ≠ j → list'[j]? = list[j]?
  goodAdd : op.IsGoodAdd → r.ok = true
  size : op = .getSize → r = .size (BitVec.ofNat 32 list.length)
  got : ∀ pos item, op = .get pos → r = .item (some item) → list[pos.toNat]? = some item

/-- The operation keeps its promises, whatever is behind the buffer. -/
def StepMeets (list : List CheatItem) (op : CheatOp) : Prop :=
  ∃ r list', (∀ behind, exec behind list op = some (r, list')) ∧ Meets list op r list'

instance : DecidablePred WellFormed := fun _ => inferInstanceAs (Decidable (_ ∧ _))

/-- The digits of the code fit into an item. -/
def Fits (code : CString) : Prop := code.val.countP (· ∈ arValid) ≤ 16 * maxXxCode

/-- No CodeBreaker code is added, and the codes fit. -/
def Harmless (list : List CheatItem) : CheatOp → Prop
  | .add .. => list.length < 2 ^ 32
  | .addAR (some code) _ _ => list.length < 2 ^ 32 ∧ Fits code
  | .addCB (some code) _ _ => ¬ WellFormed code
  | .updateAR (some code) _ _ pos | .updateCB (some code) _ _ pos => pos < getSize list → Fits code
  | _ => True

/-- A step of a run, over a memory that ends with the buffer. -/
def listStep (list : List CheatItem) (op : CheatOp) : Option (List CheatItem) :=
  (exec [] list op).map Prod.snd

section Lists

variable {α β : Type*}

theorem modify_concat (l : List α) (a : α) (f : α → α) : (l ++ [a]).modify l.length f = l ++ [f a] := by
  induction l with
  | nil => rfl
  | cons b l ih => rw [List.cons_append, List.length_cons, List.modify_succ_cons, ih, List.cons_append]

theorem set_eq_modify {l : List α} {p : ℕ} {a : α} (h : l[p]? = some a) (f : α → α) :
    l.set p (f a) = l.modify p f := by
  refine List.ext_getElem? fun j => ?_
  by_cases hj : p = j
  · subst hj
    rw [List.getElem?_modify_eq, h, List.getElem?_set_self (List.getElem?_eq_some_iff.mp h).1]
    rfl
  · rw [List.getElem?_modify_ne _ _ hj, List.getElem?_set_ne hj]

theorem map_modify (l : List α) (p : ℕ) {f : α → α} {g : β → β} {c : α → β}
    (h : ∀ a, c (f a) = g (c a)) : (l.modify p f).map c = (l.map c).modify p g := by
  refine List.ext_getElem? fun j => ?_
  rw [List.getElem?_map]
  by_cases hj : p = j
  · subst hj
    rw [List.getElem?_modify_eq, List.getElem?_modify_eq, List.getElem?_map]
    cases l[p]? with
    | none => rfl
    | some a => exact congrArg some (h a)
  · rw [List.getElem?_modify_ne _ _ hj, List.getElem?_modify_ne _ _ hj, List.getElem?_map]

end Lists

section Contents

variable (item : CheatItem)

theorem content_withInternal (size : BitVec 8) (address val : BitVec 32) :
    (item.withInternal size address val).content =
      { item.content with
        type := 0
        codes := [(address &&& 0x00FFFFFF#32, val)]
        size := size } := by
  simp only [CheatItem.content, CheatItem.withInternal, List.range_one, List.map_singleton,
    Function.update_self]

theorem content_withLines {v : List (BitVec 8)} (h : v.length / 16 ≤ maxXxCode) :
    (item.withLines v h).content =
      { item.content with
        codes := (List.range (v.length / 16)).map (scanLine v)
        size := 0 } := by
  have hcodes : (List.range (v.length / 16)).map (item.withLines v h).code =
      (List.range (v.length / 16)).map (scanLine v) :=
    List.map_congr_left fun i hi => if_pos (List.mem_range.mp hi)
  simp only [CheatItem.content]
  rw [← hcodes]
  rfl

theorem content_withType (type : BitVec 8) :
    ({ item with type := type } : CheatItem).content = { item.content with type := type } := by
  simp only [CheatItem.content]

/-- The item with a description, switched on or off. -/
def CheatItem.labelled (item : CheatItem) (description : CString) (enabled : Bool) : CheatItem :=
  { item with
    description := copyTruncated 1024 description
    enabled := enabled }

theorem content_labelled (description : CString) (enabled : Bool) :
    (item.labelled description enabled).content =
      { item.content with
        description := described description
        enabled := enabled } := by
  have hcut : stringOf (copyTruncated 1024 description) = described description :=
    stringOf_copyTruncated description
  simp only [CheatItem.content, CheatItem.labelled, hcut]

theorem setEnabled_setDescription (list : List CheatItem) (description : CString) (enabled : Bool)
    (pos : BitVec 32) : setEnabled (setDescription list description pos) enabled pos.toNat =
      list.modify pos.toNat fun item => item.labelled description enabled :=
  List.modify_modify_eq ..

end Contents

section Parse

variable {code : CString}

theorem Fits.count_le (h : Fits code) : (validChars code.val).length / 16 ≤ maxXxCode := by
  rw [Fits, ← length_validChars] at h
  omega

/-- The item of a code that is accepted. -/
theorem parseCode_wellFormed (h : WellFormed code) (behind : List (BitVec 8)) (item : CheatItem) :
    parseCode behind item code =
      some (true, item.withLines (validChars code.val) (Fits.count_le h.2)) := by
  obtain ⟨hlines, hfits⟩ := h
  rw [← length_validChars] at hlines hfits
  rw [parseCode_of_lt behind item code (by rw [tmpSize]; omega), dif_neg (by omega)]

theorem parseCode_refused (h : Fits code) (hbad : ¬ WellFormed code) (behind : List (BitVec 8))
    (item : CheatItem) : parseCode behind item code = some (false, item) := by
  have hfits := h
  rw [WellFormed, not_and'] at hbad
  have hlines := hbad h
  rw [Fits, ← length_validChars] at hfits
  rw [← length_validChars] at hlines
  rw [parseCode_of_lt behind item code (by rw [tmpSize]; omega), dif_pos (by omega)]

end Parse

section Promises

variable {list list' : List CheatItem} {op : CheatOp}

theorem Meets.of_refused (hadd : ¬ op.IsGoodAdd) (hsize : op ≠ .getSize) (hget : ∀ pos, op ≠ .get pos) :
    Meets list op (.bool false) list where
  refused _ := rfl
  accepted h := Bool.noConfusion h
  position h := Bool.noConfusion h
  others _ _ _ _ := rfl
  goodAdd h := absurd h hadd
  size h := absurd h hsize
  got pos _ h := absurd h (hget pos)

theorem Meets.of_added (hcontent : list'.map CheatItem.content = op.apply (list.map CheatItem.content))
    (hposition : op.position = none) (hupdated : op.updated = none) (hsize : op ≠ .getSize)
    (hget : ∀ pos, op ≠ .get pos) : Meets list op (.bool true) list' where
  refused h := Bool.noConfusion h
  accepted _ := hcontent
  position _ _ h := nomatch hposition.symm.trans h
  others _ h := nomatch hupdated.symm.trans h
  goodAdd _ := rfl
  size h := absurd h hsize
  got pos _ h := absurd h (hget pos)

/-- An update that succeeds works on the item at its position. -/
theorem Meets.of_updated {pos : BitVec 32} {f : CheatItem → CheatItem}
    {g : CheatContent → CheatContent} (hfg : ∀ item, (f item).content = g item.content)
    (happly : op.apply (list.map CheatItem.content) =
      (list.map CheatItem.content).modify pos.toNat g)
    (hpos : pos.toNat < list.length) (hupdated : op.updated = some pos)
    (hposition : op.position = some pos) (hsize : op ≠ .getSize) (hget : ∀ pos, op ≠ .get pos) :
    Meets list op (.bool true) (list.modify pos.toNat f) where
  refused h := Bool.noConfusion h
  accepted _ := by rw [happly, map_modify list pos.toNat hfg]
  position _ p h := by
    obtain rfl := Option.some.inj (hposition.symm.trans h)
    exact hpos
  others p h j hj := by
    obtain rfl := Option.some.inj (hupdated.symm.trans h)
    exact List.getElem?_modify_ne _ _ hj
  goodAdd _ := rfl
  size h := absurd h hsize
  got pos _ h := absurd h (hget pos)

end Promises

section Adds

variable {list : List CheatItem} {description : CString} {enabled : Bool}

/-- The end of an operation that adds an item. -/
theorem label_last (h : list.length < 2 ^ 32) (item : CheatItem) :
    setEnabled (setDescription (list ++ [item]) description (BitVec.ofNat 32 list.length)) enabled
      list.length = list ++ [item.labelled description enabled] := by
  have hnum : (BitVec.ofNat 32 list.length).toNat = list.length := by
    rw [BitVec.toNat_ofNat, Nat.mod_eq_of_lt h]
  have hlast := setEnabled_setDescription (list ++ [item]) description enabled
    (BitVec.ofNat 32 list.length)
  rw [hnum, modify_concat] at hlast
  exact hlast

theorem map_content_concat (item : CheatItem) :
    (list ++ [item]).map CheatItem.content = list.map CheatItem.content ++ [item.content] := by
  rw [List.map_append, List.map_singleton]

theorem meets_add (h : list.length < 2 ^ 32) (size : BitVec 8) (address val : BitVec 32) :
    StepMeets list (.add size address val description enabled) := by
  let item := (newItem.withInternal size address val).labelled description enabled
  have hadd : add list size address val description enabled = (true, list ++ [item]) := by
    rw [add]
    simp only [modify_concat]
    rw [label_last h]
  refine ⟨.bool true, list ++ [item], fun behind => by rw [exec, hadd]; rfl, ?_⟩
  refine .of_added ?_ rfl rfl nofun nofun
  rw [map_content_concat, content_labelled, content_withInternal]
  rfl

theorem meets_addARDirect (cheat : CheatItem) : StepMeets list (.addARDirect cheat) := by
  let item : CheatItem := { cheat with type := 1 }
  have hadd : addARDirect list cheat = (true, list ++ [item]) := by
    rw [addARDirect]
    simp only [setType, modify_concat]
    rfl
  refine ⟨.bool true, list ++ [item], fun behind => by rw [exec, hadd]; rfl, ?_⟩
  refine .of_added ?_ rfl rfl nofun nofun
  rw [map_content_concat, content_withType]
  rfl

theorem meets_addAR {code : CString} (h : list.length < 2 ^ 32) (hfits : Fits code) :
    StepMeets list (.addAR (some code) description enabled) := by
  by_cases hgood : WellFormed code
  · let parsed := newItem.withLines (validChars code.val) hfits.count_le
    let item := ({ parsed with type := 1 } : CheatItem).labelled description enabled
    have hadd (behind : List (BitVec 8)) :
        addAR list behind (some code) description enabled = some (true, list ++ [item]) := by
      rw [addAR, xxCodeFromString, parseCode_wellFormed hgood]
      simp only [Option.map_some, Option.bind_eq_bind, Option.bind_some, Option.toList_some, setType,
        modify_concat, if_true]
      rw [label_last h]
      rfl
    refine ⟨.bool true, list ++ [item], fun behind => by rw [exec, hadd]; rfl, ?_⟩
    refine .of_added ?_ rfl rfl (fun h => CheatOp.noConfusion h) fun _ h => CheatOp.noConfusion h
    rw [map_content_concat, content_labelled, content_withType, content_withLines]
    rfl
  · refine ⟨.bool false, list, fun behind => ?_,
      .of_refused ?_ (fun h => CheatOp.noConfusion h) fun _ h => CheatOp.noConfusion h⟩
    · rw [exec, addAR, xxCodeFromString, parseCode_refused hfits hgood]
      rfl
    · rintro ⟨s, hs, hs'⟩
      exact hgood (Option.some.inj hs ▸ hs')

theorem meets_add_null : StepMeets list (.addAR none description enabled) :=
  ⟨.bool false, list, fun _ => rfl, .of_refused (fun ⟨_, h, _⟩ => nomatch h) nofun nofun⟩

/-- There is no place behind the list. -/
theorem getItemByIndex_length : getItemByIndex list (BitVec.ofNat 32 list.length) = none :=
  if_pos (BitVec.le_refl _)

theorem exec_addCB (behind : List (BitVec 8)) (code : Option CString) :
    exec behind list (.addCB code description enabled) = some (.bool false, list) := by
  rw [exec, addCB, getItemByIndex_length]
  cases code <;> rfl

theorem meets_addCB {code : Option CString} (h : ∀ s, code = some s → ¬ WellFormed s) :
    StepMeets list (.addCB code description enabled) := by
  refine ⟨.bool false, list, fun behind => exec_addCB behind code, .of_refused ?_ nofun nofun⟩
  rintro ⟨s, hs, hs'⟩
  exact h s hs hs'

/-- A CodeBreaker code is never added. -/
theorem not_meets_addCB {code : CString} (h : WellFormed code) :
    ¬ StepMeets list (.addCB (some code) description enabled) := by
  rintro ⟨r, list', hexec, hmeets⟩
  have hrefused := (hexec []).symm.trans (exec_addCB [] (some code))
  obtain ⟨rfl, rfl⟩ := Prod.mk.inj (Option.some.inj hrefused)
  exact Bool.noConfusion (hmeets.goodAdd ⟨code, rfl, h⟩)

end Adds

section Updates

variable {list : List CheatItem} {description : CString} {enabled : Bool} {pos : BitVec 32}

theorem meets_update (size : BitVec 8) (address val : BitVec 32) :
    StepMeets list (.update size address val description enabled pos) := by
  by_cases hpos : list.length ≤ pos.toNat
  · refine ⟨.bool false, list, fun behind => ?_, .of_refused id nofun nofun⟩
    rw [exec, update, if_pos hpos]
    rfl
  · let f (item : CheatItem) : CheatItem :=
      (item.withInternal size address val).labelled description enabled
    have hupdate : update list size address val description enabled pos =
        (true, list.modify pos.toNat f) := by
      rw [update, if_neg hpos]
      simp only [setEnabled_setDescription, List.modify_modify_eq]
      rfl
    refine ⟨.bool true, list.modify pos.toNat f, fun behind => by rw [exec, hupdate]; rfl, ?_⟩
    refine .of_updated (fun item => ?_) rfl (not_le.mp hpos) rfl rfl nofun nofun
    rw [content_labelled, content_withInternal]

variable {op : CheatOp} {type : BitVec 8}

/-- The item with other lines. -/
def CheatItem.recoded (item : CheatItem) {code : CString} (h : Fits code) (type : BitVec 8)
    (description : CString) (enabled : Bool) : CheatItem :=
  CheatItem.labelled { item.withLines (validChars code.val) h.count_le with type := type } description
    enabled

theorem content_recoded (item : CheatItem) {code : CString} (h : Fits code) :
    (item.recoded h type description enabled).content =
      ⟨type, enabled, item.content.freezeType, linesOf code, described description, 0⟩ := by
  rw [CheatItem.recoded, content_labelled, content_withType, content_withLines]
  rfl

theorem storeItem_parsed {code : CString} (h : Fits code) {item : CheatItem}
    (hitem : list[pos.toNat]? = some item) :
    setEnabled (setType (setDescription
        (storeItem list pos (some (item.withLines (validChars code.val) h.count_le))) description pos)
        type pos.toNat) enabled pos.toNat =
      list.modify pos.toNat fun item => item.recoded h type description enabled := by
  rw [storeItem, set_eq_modify hitem fun item => item.withLines (validChars code.val) h.count_le,
    setEnabled, setType, setDescription]
  simp only [List.modify_modify_eq]
  rfl

theorem getItemByIndex_of_lt (h : pos < getSize list) :
    ∃ item, list[pos.toNat]? = some item ∧ getItemByIndex list pos = some item := by
  have hlt : pos.toNat < list.length := by
    rw [getSize, BitVec.lt_def, BitVec.toNat_ofNat] at h
    exact h.trans_le (Nat.mod_le _ _)
  have hget : getItemByIndex list pos = list[pos.toNat]? := if_neg (BitVec.not_le.mpr h)
  exact ⟨list[pos.toNat], List.getElem?_eq_getElem hlt, hget.trans (List.getElem?_eq_getElem hlt)⟩

theorem meets_updateCode {code : Option CString} (hexec : ∀ behind, exec behind list op =
      (updateCode list behind type code description enabled pos).map (Prod.map .bool id))
    (happly : op.apply (list.map CheatItem.content) =
      (list.map CheatItem.content).modify pos.toNat fun c =>
        match code with
        | none => { c with enabled := enabled }
        | some code => ⟨type, enabled, c.freezeType, linesOf code, described description, 0⟩)
    (hadd : ¬ op.IsGoodAdd) (hupdated : op.updated = some pos) (hposition : op.position = some pos)
    (hsize : op ≠ .getSize) (hget : ∀ pos, op ≠ .get pos)
    (hfits : ∀ s, code = some s → pos < getSize list → Fits s) : StepMeets list op := by
  by_cases hpos : list.length ≤ pos.toNat
  · refine ⟨.bool false, list, fun behind => ?_, .of_refused hadd hsize hget⟩
    rw [hexec, updateCode.eq_def, if_pos hpos]
    rfl
  have hlt := not_le.mp hpos
  cases code with
  | none =>
    refine ⟨.bool true, setEnabled list enabled pos.toNat, fun behind => ?_,
      .of_updated (fun item => ?_) happly hlt hupdated hposition hsize hget⟩
    · rw [hexec, updateCode.eq_def, if_neg hpos]
      rfl
    · simp only [CheatItem.content]
  | some code =>
    by_cases hnull : getSize list ≤ pos
    · -- only for a list that is longer than its size
      refine ⟨.bool false, list, fun behind => ?_, .of_refused hadd hsize hget⟩
      rw [hexec, updateCode.eq_def, if_neg hpos]
      dsimp only
      rw [getItemByIndex, if_pos hnull]
      rfl
    have hfit := hfits code rfl (BitVec.not_le.mp hnull)
    obtain ⟨item, hitem, hget'⟩ := getItemByIndex_of_lt (BitVec.not_le.mp hnull)
    by_cases hgood : WellFormed code
    · refine ⟨.bool true,
        list.modify pos.toNat fun item => item.recoded hfit type description enabled,
        fun behind => ?_,
        .of_updated (fun item => content_recoded item hfit) happly hlt hupdated hposition hsize hget⟩
      rw [hexec, updateCode.eq_def, if_neg hpos]
      dsimp only
      rw [hget', xxCodeFromString, parseCode_wellFormed hgood]
      simp only [Option.map_some, Option.bind_eq_bind, Option.bind_some, if_true]
      rw [storeItem_parsed hfit hitem]
      rfl
    · refine ⟨.bool false, list, fun behind => ?_, .of_refused hadd hsize hget⟩
      have hsame : list.set pos.toNat item = list :=
        (set_eq_modify hitem id).trans (List.modify_id ..)
      rw [hexec, updateCode.eq_def, if_neg hpos]
      dsimp only
      rw [hget', xxCodeFromString, parseCode_refused hfit hgood]
      simp only [Option.map_some, Option.bind_eq_bind, Option.bind_some, storeItem, hsame]
      rfl

end Updates

section Others

variable {list : List CheatItem} (pos : BitVec 32)

theorem meets_remove : StepMeets list (.remove pos) := by
  by_cases hpos : list.length ≤ pos.toNat
  · refine ⟨.bool false, list, fun _ => ?_, .of_refused id nofun nofun⟩
    rw [exec, remove, if_pos hpos]
    rfl
  · have hne : list.length ≠ 0 := by omega
    refine ⟨.bool true, list.eraseIdx pos.toNat, fun _ => ?_, ?_⟩
    · rw [exec, remove, if_neg hpos, if_neg hne]
      rfl
    refine ⟨nofun, fun _ => ?_, fun _ p h => ?_, nofun, fun _ => rfl, nofun, nofun⟩
    · exact (List.eraseIdx_map ..).symm
    · obtain rfl := Option.some.inj h
      exact not_le.mp hpos

theorem meets_getSize : StepMeets list .getSize := by
  refine ⟨.size (getSize list), list, fun _ => rfl, ?_⟩
  exact ⟨nofun, fun _ => rfl, nofun, nofun, fun h => False.elim h, fun _ => rfl, nofun⟩

theorem getItemByIndex_eq_some {item : CheatItem} (h : getItemByIndex list pos = some item) :
    list[pos.toNat]? = some item := by
  rw [getItemByIndex] at h
  split_ifs at h
  exact h

theorem meets_get : StepMeets list (.get pos) := by
  refine ⟨.item (get list pos), list, fun _ => rfl, ?_⟩
  refine ⟨fun _ => rfl, fun _ => rfl, fun hok p h => ?_, nofun, fun h => False.elim h, nofun,
    fun p item h hitem => ?_⟩
  · obtain rfl := Option.some.inj h
    obtain ⟨item, hitem⟩ := Option.isSome_iff_exists.mp hok
    exact (List.getElem?_eq_some_iff.mp (getItemByIndex_eq_some pos hitem)).1
  · obtain rfl := CheatOp.get.inj h
    exact getItemByIndex_eq_some pos (CheatResult.item.inj hitem)

end Others

theorem stepMeets_of_harmless {list : List CheatItem} {op : CheatOp} (h : Harmless list op) :
    StepMeets list op := by
  cases op with
  | add size address val description enabled => exact meets_add h size address val
  | addAR code description enabled =>
    cases code with
    | none => exact meets_add_null
    | some code => exact meets_addAR h.1 h.2
  | addARDirect cheat => exact meets_addARDirect cheat
  | addCB code description enabled =>
    refine meets_addCB fun s hs => ?_
    subst hs
    exact h
  | update size address val description enabled pos => exact meets_update size address val
  | updateAR code description enabled pos =>
    refine meets_updateCode (fun _ => rfl) ?_ id rfl rfl nofun nofun fun s hs => ?_
    · cases code <;> rfl
    · subst hs
      exact h
  | updateCB code description enabled pos =>
    refine meets_updateCode (fun _ => rfl) ?_ id rfl rfl nofun nofun fun s hs => ?_
    · cases code <;> rfl
    · subst hs
      exact h
  | remove pos => exact meets_remove pos
  | getSize => exact meets_getSize
  | get pos => exact meets_get pos

/-- Every step of a run is that of the list of contents, as long as no CodeBreaker code is added and
the codes fit into an item. -/
theorem cheatList_refines (list : List CheatItem) (ops : List CheatOp)
    (h : AtEachM listStep Harmless list ops) : AtEachM listStep StepMeets list ops := by
  induction ops generalizing list with
  | nil => exact trivial
  | cons op ops ih => exact ⟨stepMeets_of_harmless h.1, fun list' hlist' => ih list' (h.2 list' hlist')⟩

theorem cheatList_refines_newItem :
    AtEachM listStep StepMeets []
      [.add 0 0x02000000#32 1 ⟨[], nofun⟩ true, .addARDirect newItem, .remove 0, .getSize] :=
  cheatList_refines [] _ ⟨show 0 < 2 ^ 32 by decide, fun _ _ => ⟨trivial, fun _ _ => ⟨trivial, fun _ _ =>
    ⟨trivial, fun _ _ => trivial⟩⟩⟩⟩

/-- The code of one line, all zeros. -/
def oneLine : CString := ⟨List.replicate 16 (cchar '0'), by decide⟩

theorem addCB_oneLine_refused :
    ¬ AtEachM listStep StepMeets [] [.addCB (some oneLine) ⟨[], nofun⟩ true] :=
  fun h => not_meets_addCB (by decide) h.1

end Desmume.Cheat
