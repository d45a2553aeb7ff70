import Desmume.Cheat.CheatItem
import Desmume.Library.PartialRun

/-! The operations on the cheat list, and the list of contents they stand for. -/

namespace Desmume.Cheat
open Library

section Operations

variable (list : List CheatItem)

def getSize : BitVec 32 := BitVec.ofNat 32 list.length

/-- `getItemByIndex`, whose place in the list may be null. -/
def getItemByIndex (pos : BitVec 32) : Option CheatItem :=
  if getSize list ≤ pos then none else list[pos.toNat]?

/-- What was written through a place of `getItemByIndex`. -/
def storeItem (pos : BitVec 32) : Option CheatItem → List CheatItem
  | none => list
  | some item => list.set pos.toNat item

def setDescription (description : CString) (pos : BitVec 32) : List CheatItem :=
  list.modify pos.toNat fun item => { item with description := copyTruncated 1024 description }

def setEnabled (enabled : Bool) (pos : ℕ) : List CheatItem :=
  list.modify pos fun item => { item with enabled := enabled }

def setType (type : BitVec 8) (pos : ℕ) : List CheatItem :=
  list.modify pos fun item => { item with type := type }

/-- The code of the internal cheat system. -/
def CheatItem.withInternal (item : CheatItem) (size : BitVec 8) (address val : BitVec 32) :
    CheatItem :=
  { item with
    code := Function.update item.code 0 (address &&& 0x00FFFFFF#32, val)
    num := 1
    num_le := by decide
    type := 0
    size := size }

def add (size : BitVec 8) (address val : BitVec 32) (description : CString) (enabled : Bool) :
    Bool × List CheatItem :=
  let num := list.length
  let list := list ++ [newItem]
  let list := list.modify num fun item => item.withInternal size address val
  let list := setDescription list description (BitVec.ofNat 32 num)
  (true, setEnabled list enabled num)

def update (size : BitVec 8) (address val : BitVec 32) (description : CString) (enabled : Bool)
    (pos : BitVec 32) : Bool × List CheatItem :=
  if list.length ≤ pos.toNat then (false, list)
  else
    let list := list.modify pos.toNat fun item => item.withInternal size address val
    let list := setDescription list description pos
    (true, setEnabled list enabled pos.toNat)

def addARDirect (cheat : CheatItem) : Bool × List CheatItem :=
  let num := list.length
  (true, setType (list ++ [cheat]) 1 num)

variable (behind : List (BitVec 8))

/-- `add_AR`. -/
def addAR (code : Option CString) (description : CString) (enabled : Bool) :
    Option (Bool × List CheatItem) := do
  let num := list.length
  let (ok, temp) ← xxCodeFromString behind (some newItem) code
  if ok then
    let list := setType (list ++ temp.toList) 1 num
    let list := setDescription list description (BitVec.ofNat 32 num)
    return (true, setEnabled list enabled num)
  else return (false, list)

/-- `add_CB`, which looks for the place behind the list; `none` is a write there. -/
def addCB (code : Option CString) (description : CString) (enabled : Bool) :
    Option (Bool × List CheatItem) := do
  let num := list.length
  let (ok, item) ← xxCodeFromString behind (getItemByIndex list (BitVec.ofNat 32 num)) code
  let list := storeItem list (BitVec.ofNat 32 num) item
  if ok then
    if num < list.length then
      let list := setType list 2 num
      let list := setDescription list description (BitVec.ofNat 32 num)
      return (true, setEnabled list enabled num)
    else none
  else return (false, list)

/-- The update of a list code of a type. -/
def updateCode (type : BitVec 8) (code : Option CString) (description : CString) (enabled : Bool)
    (pos : BitVec 32) : Option (Bool × List CheatItem) :=
  if list.length ≤ pos.toNat then some (false, list)
  else
    match code with
    | none => some (true, setEnabled list enabled pos.toNat)
    | some code => do
      let (ok, item) ← xxCodeFromString behind (getItemByIndex list pos) (some code)
      let list := storeItem list pos item
      if ok then
        let list := setType (setDescription list description pos) type pos.toNat
        return (true, setEnabled list enabled pos.toNat)
      else return (false, list)

/-- `update_AR`, and `update_CB`, which sets the type before the description. -/
def updateAR := updateCode list behind 1

def updateCB := updateCode list behind 2

def remove (pos : BitVec 32) : Bool × List CheatItem :=
  if list.length ≤ pos.toNat then (false, list)
  else if list.length = 0 then (false, list)
  else (true, list.eraseIdx pos.toNat)

/-- `get`, with the item on success. -/
def get (pos : BitVec 32) : Option CheatItem := getItemByIndex list pos

end Operations

inductive CheatOp where
  | add (size : BitVec 8) (address val : BitVec 32) (description : CString) (enabled : Bool)
  | addAR (code : Option CString) (description : CString) (enabled : Bool)
  | addARDirect (cheat : CheatItem)
  | addCB (code : Option CString) (description : CString) (enabled : Bool)
  | update (size : BitVec 8) (address val : BitVec 32) (description : CString) (enabled : Bool)
      (pos : BitVec 32)
  | updateAR (code : Option CString) (description : CString) (enabled : Bool) (pos : BitVec 32)
  | updateCB (code : Option CString) (description : CString) (enabled : Bool) (pos : BitVec 32)
  | remove (pos : BitVec 32)
  | getSize
  | get (pos : BitVec 32)

inductive CheatResult where
  | bool (ok : Bool)
  | size (n : BitVec 32)
  | item (item : Option CheatItem)

def CheatResult.ok : CheatResult → Bool
  | bool ok => ok
  | size _ => true
  | item i => i.isSome

/-- An operation on the list, with what it returns. -/
def exec (behind : List (BitVec 8)) (list : List CheatItem) :
    CheatOp → Option (CheatResult × List CheatItem)
  | .add size address val description enabled =>
    some ((add list size address val description enabled).map .bool id)
  | .addAR code description enabled =>
    (addAR list behind code description enabled).map (Prod.map .bool id)
  | .addARDirect cheat => some ((addARDirect list cheat).map .bool id)
  | .addCB code description enabled =>
    (addCB list behind code description enabled).map (Prod.map .bool id)
  | .update size address val description enabled pos =>
    some ((update list size address val description enabled pos).map .bool id)
  | .updateAR code description enabled pos =>
    (updateAR list behind code description enabled pos).map (Prod.map .bool id)
  | .updateCB code description enabled pos =>
    (updateCB list behind code description enabled pos).map (Prod.map .bool id)
  | .remove pos => some ((remove list pos).map .bool id)
  | .getSize => some (.size (getSize list), list)
  | .get pos => some (.item (get list pos), list)

/-- What an item says, without the lines behind its code and the bytes behind its description. -/
structure CheatContent where
  type : BitVec 8
  enabled : Bool
  freezeType : BitVec 8
  codes : List ArLine
  description : List (BitVec 8)
  size : BitVec 8

def CheatItem.content (item : CheatItem) : CheatContent where
  type := item.type
  enabled := item.enabled
  freezeType := item.freezeType
  codes := (List.range item.num).map item.code
  description := stringOf item.description
  size := item.size

/-- The lines of a code. -/
def linesOf (code : CString) : List ArLine :=
  (List.range ((validChars code.val).length / 16)).map (scanLine (validChars code.val))

/-- The text of a description, cut to the size of the array. -/
def described (description : CString) : List (BitVec 8) := description.val.take 1023

/-- The contents after an operation that succeeds. -/
def CheatOp.apply (contents : List CheatContent) : CheatOp → List CheatContent
  | add size address val description enabled =>
    contents ++ [⟨0, enabled, 0, [(address &&& 0x00FFFFFF#32, val)], described description, size⟩]
  | addAR (some code) description enabled =>
    contents ++ [⟨1, enabled, 0, linesOf code, described description, 0⟩]
  | addARDirect cheat => contents ++ [{ cheat.content with type := 1 }]
  | addCB (some code) description enabled =>
    contents ++ [⟨2, enabled, 0, linesOf code, described description, 0⟩]
  | update size address val description enabled pos =>
    contents.modify pos.toNat fun c =>
      ⟨0, enabled, c.freezeType, [(address &&& 0x00FFFFFF#32, val)], described description, size⟩
  | updateAR (some code) description enabled pos =>
    contents.modify pos.toNat fun c =>
      ⟨1, enabled, c.freezeType, linesOf code, described description, 0⟩
  | updateCB (some code) description enabled pos =>
    contents.modify pos.toNat fun c =>
      ⟨2, enabled, c.freezeType, linesOf code, described description, 0⟩
  | updateAR none _ enabled pos | updateCB none _ enabled pos =>
    contents.modify pos.toNat fun c => { c with enabled := enabled }
  | remove pos => contents.eraseIdx pos.toNat
  | addAR none _ _ | addCB none _ _ | getSize | get _ => contents

/-- The position of an update, and of what is removed or read. -/
def CheatOp.updated : CheatOp → Option (BitVec 32)
  | update _ _ _ _ _ pos | updateAR _ _ _ pos | updateCB _ _ _ pos => some pos
  | _ => none

def CheatOp.position : CheatOp → Option (BitVec 32)
  | remove pos | get pos => some pos
  | op => op.updated

/-- A code that is made of lines and fits into an item. -/
def WellFormed (code : CString) : Prop :=
  16 ∣ code.val.countP (· ∈ arValid) ∧ code.val.countP (· ∈ arValid) ≤ 16 * maxXxCode

def CheatOp.IsGoodAdd : CheatOp → Prop
  | add .. | addARDirect _ => True
  | addAR code _ _ | addCB code _ _ => ∃ s, code = some s ∧ WellFormed s
  | _ => False

end Desmume.Cheat
