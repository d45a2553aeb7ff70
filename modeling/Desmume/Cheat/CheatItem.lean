import Desmume.Cheat.ArDefs
import Desmume.Library.CString

/-! The items of the cheat list, and their codes as text: what is printed is read back, and a string
with no more valid characters than the code array has digits is read within the buffers. -/

namespace Desmume.Cheat
open Library

/-- `CHEATS_LIST` with what is not for the interpreter. -/
structure CheatItem extends CheatsList where
  type : BitVec 8
  enabled : Bool
  freezeType : BitVec 8
  description : Fin 1024 → BitVec 8
  size : BitVec 8

/-- The constructor. -/
def newItem : CheatItem where
  code _ := (0, 0)
  num := 0
  num_le := Nat.zero_le _
  type := 0xFF
  enabled := false
  freezeType := 0
  description _ := 0
  size := 0

/-- `sizeof(tmp_buf)`. -/
def tmpSize : ℕ := 2 * (maxXxCode * 2 * 4) + 1

def arValid : List (BitVec 8) :=
  ['O', 'o', '0', '1', '2', '3', '4', '5', '6', '7', '8', '9', 'A', 'B', 'C', 'D', 'E', 'F', 'a', 'b',
    'c', 'd', 'e', 'f'].map cchar

/-- The letter O stands for a zero. -/
def zeroForO (c : BitVec 8) : BitVec 8 := if c = cchar 'o' ∨ c = cchar 'O' then cchar '0' else c

/-- A character of the code goes to the buffer if it is valid; `none` is a write behind its end. -/
def keepValid (st : BitVec 16 × List (BitVec 8)) (c : BitVec 8) :
    Option (BitVec 16 × List (BitVec 8)) :=
  if c ∈ arValid then
    if st.1.toNat < st.2.length then some (st.1 + 1, st.2.set st.1.toNat (zeroForO c)) else none
  else some st

/-- The value of a hex digit. -/
def hexValue (c : BitVec 8) : ℕ :=
  if c ≤ cchar '9' then (c - cchar '0').toNat
  else if c ≤ cchar 'F' then (c - cchar 'A').toNat + 10
  else (c - cchar 'a').toNat + 10

/-- `sscanf` with `%x`, on eight hex digits. -/
def scanHex (buf : List (BitVec 8)) : BitVec 32 := BitVec.ofNat 32 (ofDigits 16 (buf.map hexValue))

def scanLine (tmp : List (BitVec 8)) (i : ℕ) : ArLine :=
  (scanHex ((tmp.drop (16 * i)).take 8), scanHex ((tmp.drop (16 * i + 8)).take 8))

/-- `XXCodeFromString` on a string, with its result and the item; `behind` is the memory behind the
buffer. There is no result if it writes behind the buffer or the code array. -/
def parseCode (behind : List (BitVec 8)) (cheatItem : CheatItem) (codeString : CString) :
    Option (Bool × CheatItem) := do
  let (_, tmp) ← codeString.val.foldlM keepValid (0#16, List.replicate tmpSize 0#8)
  let mem := tmp ++ behind
  let len ← strlen mem
  if len % 16 ≠ 0 then return (false, cheatItem)
  let count := len / 16
  if h : count ≤ maxXxCode then
    return (true, { cheatItem with
      code := fun i => if i < count then scanLine mem i else cheatItem.code i
      num := count
      num_le := h
      size := 0 })
  else none

/-- `XXCodeFromString`, whose pointers may be null. -/
def xxCodeFromString (behind : List (BitVec 8)) (cheatItem : Option CheatItem)
    (codeString : Option CString) : Option (Bool × Option CheatItem) :=
  match cheatItem, codeString with
  | some item, some s => (parseCode behind item s).map fun r => (r.1, some r.2)
  | _, _ => some (false, cheatItem)

def upperHex (d : ℕ) : BitVec 8 :=
  if d < 10 then cchar '0' + BitVec.ofNat 8 d else cchar 'A' + BitVec.ofNat 8 (d - 10)

/-- `%08X`. -/
def printHex (w : BitVec 32) : List (BitVec 8) := (digitsOf 16 8 w.toNat).map upperHex

def printLine (line : ArLine) : List (BitVec 8) :=
  printHex line.1 ++ cchar ' ' :: printHex line.2 ++ [cchar '\n']

/-- `getXXcodeString` into an empty buffer. -/
def getXXcodeString (list : CheatItem) : List (BitVec 8) :=
  (List.range list.num).flatMap fun i => printLine (list.code i)

/-- The characters of a code, as they are stored. -/
def validChars (s : List (BitVec 8)) : List (BitVec 8) := (s.filter (· ∈ arValid)).map zeroForO

/-! ### Codes as text -/

section Characters

theorem upperHex_valid {d : ℕ} (h : d < 16) : upperHex d ∈ arValid := by
  revert d
  decide

theorem zeroForO_upperHex {d : ℕ} (h : d < 16) : zeroForO (upperHex d) = upperHex d := by
  revert d
  decide

theorem hexValue_upperHex {d : ℕ} (h : d < 16) : hexValue (upperHex d) = d := by
  revert d
  decide

theorem zeroForO_ne_zero {c : BitVec 8} (h : c ∈ arValid) : zeroForO c ≠ 0#8 := by
  revert c
  decide

theorem validChars_append (s s' : List (BitVec 8)) :
    validChars (s ++ s') = validChars s ++ validChars s' := by
  rw [validChars, List.filter_append, List.map_append]
  rfl

theorem validChars_ne_zero (s : List (BitVec 8)) : ∀ c ∈ validChars s, c ≠ 0#8 := by
  intro c hc
  obtain ⟨a, ha, rfl⟩ := List.mem_map.mp hc
  exact zeroForO_ne_zero (of_decide_eq_true (List.mem_filter.mp ha).2)

theorem length_validChars (s : List (BitVec 8)) :
    (validChars s).length = s.countP (· ∈ arValid) := by
  rw [validChars, List.length_map, List.countP_eq_length_filter]

end Characters

section Buffer

/-- The buffer with the characters that are stored so far. -/
def filled (pre : List (BitVec 8)) (m : ℕ) : BitVec 16 × List (BitVec 8) :=
  (BitVec.ofNat 16 pre.length, pre ++ List.replicate m 0#8)

theorem keepValid_filled {pre : List (BitVec 8)} {m : ℕ} (hm : pre.length + m = tmpSize)
    {c : BitVec 8} (hc : c ∈ arValid) :
    keepValid (filled pre m) c =
      match m with
      | 0 => none
      | m + 1 => some (filled (pre ++ [zeroForO c]) m) := by
  have hindex : (filled pre m).1.toNat = pre.length := by
    rw [tmpSize, maxXxCode] at hm
    rw [filled, BitVec.toNat_ofNat, Nat.mod_eq_of_lt (by omega)]
  rw [keepValid, if_pos hc, hindex, filled, List.length_append, List.length_replicate]
  cases m with
  | zero => exact if_neg (by omega)
  | succ m =>
    dsimp only
    rw [if_pos (by omega), List.replicate_succ, List.set_append_right _ _ le_rfl, Nat.sub_self,
      List.set_cons_zero, filled, List.length_append, List.append_assoc, BitVec.ofNat_add]
    rfl

theorem foldlM_keepValid (s : List (BitVec 8)) {pre : List (BitVec 8)} {m : ℕ}
    (hm : pre.length + m = tmpSize) :
    s.foldlM keepValid (filled pre m) =
      if (validChars s).length ≤ m then
        some (filled (pre ++ validChars s) (m - (validChars s).length))
      else none := by
  induction s generalizing pre m with
  | nil =>
    have hnil : validChars [] = [] := rfl
    rw [hnil, List.append_nil]
    exact (if_pos (Nat.zero_le m)).symm
  | cons c s ih =>
    rw [List.foldlM_cons]
    by_cases hc : c ∈ arValid
    · have hvalid : validChars (c :: s) = zeroForO c :: validChars s := by
        rw [validChars, List.filter_cons_of_pos (by exact decide_eq_true hc), List.map_cons]
        rfl
      rw [keepValid_filled hm hc, hvalid, List.length_cons]
      cases m with
      | zero => exact (if_neg (Nat.not_succ_le_zero _)).symm
      | succ m =>
        have hpre : (pre ++ [zeroForO c]).length + m = tmpSize := by
          rw [List.length_append, List.length_singleton]
          omega
        change s.foldlM keepValid (filled (pre ++ [zeroForO c]) m) = _
        rw [ih hpre, List.append_assoc, List.singleton_append, Nat.add_sub_add_right]
        simp only [Nat.add_le_add_iff_right]
    · have hvalid : validChars (c :: s) = validChars s := by
        rw [validChars, List.filter_cons_of_neg (by exact fun h => hc (of_decide_eq_true h))]
        rfl
      rw [keepValid, if_neg hc, hvalid]
      exact ih hm

end Buffer

section Parse

variable (behind : List (BitVec 8)) (item : CheatItem) (s : CString)

/-- The item with the lines of the characters `v`. -/
def CheatItem.withLines (item : CheatItem) (v : List (BitVec 8)) (h : v.length / 16 ≤ maxXxCode) :
    CheatItem :=
  { item with
    code := fun i => if i < v.length / 16 then scanLine v i else item.code i
    num := v.length / 16
    num_le := h
    size := 0 }

theorem foldlM_keepValid_start :
    s.val.foldlM keepValid (0#16, List.replicate tmpSize 0#8) =
      if (validChars s.val).length ≤ tmpSize then
        some (filled (validChars s.val) (tmpSize - (validChars s.val).length))
      else none :=
  foldlM_keepValid s.val (show ([] : List (BitVec 8)).length + tmpSize = tmpSize from Nat.zero_add _)

/-- A line whose digits are all there does not depend on what is behind them. -/
theorem scanLine_append {v : List (BitVec 8)} (rest : List (BitVec 8)) {i : ℕ}
    (h : i < v.length / 16) : scanLine (v ++ rest) i = scanLine v i := by
  have hpart {k : ℕ} (hk : k + 8 ≤ v.length) :
      ((v ++ rest).drop k).take 8 = (v.drop k).take 8 := by
    rw [List.drop_append_of_le_length (by omega), List.take_append_of_le_length]
    rw [List.length_drop]
    omega
  rw [scanLine, scanLine, hpart (by omega), hpart (by omega)]

theorem parseCode_of_lt (h : (validChars s.val).length < tmpSize) :
    parseCode behind item s =
      some (if h16 : (validChars s.val).length % 16 ≠ 0 then (false, item)
        else (true, item.withLines (validChars s.val) (by rw [tmpSize] at h; omega))) := by
  obtain ⟨m, hm⟩ := Nat.exists_eq_add_of_lt h
  have hzeros : tmpSize - (validChars s.val).length = m + 1 := by omega
  have hmem : validChars s.val ++ List.replicate (m + 1) 0#8 ++ behind =
      validChars s.val ++ 0#8 :: (List.replicate m 0#8 ++ behind) := by
    rw [List.append_assoc]
    rfl
  have hcount : (validChars s.val).length / 16 ≤ maxXxCode := by
    rw [tmpSize] at h
    omega
  have hcode (rest : List (BitVec 8)) :
      (fun i => if i < (validChars s.val).length / 16 then scanLine (validChars s.val ++ rest) i
        else item.code i) =
      fun i => if i < (validChars s.val).length / 16 then scanLine (validChars s.val) i
        else item.code i := by
    funext i
    split_ifs with hi
    · exact scanLine_append rest hi
    · rfl
  rw [parseCode, foldlM_keepValid_start, if_pos h.le, hzeros, filled]
  simp only [Option.bind_eq_bind, Option.bind_some, hmem,
    strlen_append_zero (validChars_ne_zero s.val)]
  by_cases h16 : (validChars s.val).length % 16 ≠ 0
  · rw [if_pos h16, dif_pos h16]
    rfl
  · rw [if_neg h16, dif_neg h16, dif_pos hcount]
    simp only [hcode]
    rfl

/-- A string that fills the buffer and more. -/
theorem parseCode_of_gt (h : tmpSize < (validChars s.val).length) : parseCode behind item s = none := by
  rw [parseCode, foldlM_keepValid_start, if_neg (not_le.mpr h)]
  rfl

/-- A string that fills the buffer is read on in the memory behind it. -/
theorem parseCode_of_eq (h : (validChars s.val).length = tmpSize) :
    parseCode (List.replicate 15 (cchar '0') ++ [0#8]) item s = none := by
  have hne : ∀ c ∈ validChars s.val ++ List.replicate 15 (cchar '0'), c ≠ 0#8 := by
    intro c hc
    rcases List.mem_append.mp hc with hc | hc
    · exact validChars_ne_zero s.val c hc
    · rw [List.eq_of_mem_replicate hc]
      decide
  have hlen : strlen (validChars s.val ++ (List.replicate 15 (cchar '0') ++ [0#8])) =
      some (tmpSize + 15) := by
    rw [← List.append_assoc, strlen_append_zero hne, List.length_append, List.length_replicate, h]
  rw [parseCode, foldlM_keepValid_start, if_pos h.le, h, Nat.sub_self, filled, List.replicate_zero,
    List.append_nil]
  simp only [Option.bind_eq_bind, Option.bind_some, hlen]
  rfl

end Parse

/-- Whatever is behind the buffer and in the item, the string is read within the buffer and the code
array, and a refused one leaves the item as it was. -/
def ParsesSafely (s : CString) : Prop :=
  ∀ behind item, ∃ r, parseCode behind item s = some r ∧ (r.1 = false → r.2 = item)

theorem parsesSafely_iff (s : CString) : ParsesSafely s ↔ s.val.countP (· ∈ arValid) < tmpSize := by
  rw [← length_validChars]
  constructor
  · intro h
    by_contra hge
    obtain ⟨r, hr, -⟩ := h (List.replicate 15 (cchar '0') ++ [0#8]) newItem
    rcases (not_lt.mp hge).lt_or_eq with hgt | heq
    · exact Option.some_ne_none r (hr.symm.trans (parseCode_of_gt _ newItem s hgt))
    · exact Option.some_ne_none r (hr.symm.trans (parseCode_of_eq newItem s heq.symm))
  · intro h behind item
    refine ⟨_, parseCode_of_lt behind item s h, fun hfalse => ?_⟩
    split_ifs at hfalse ⊢
    · rfl

section RoundTrip

theorem mem_printHex {w : BitVec 32} {c : BitVec 8} (hc : c ∈ printHex w) :
    c ∈ arValid ∧ zeroForO c = c := by
  obtain ⟨d, hd, rfl⟩ := List.mem_map.mp hc
  have hlt := lt_of_mem_digitsOf (by decide) hd
  exact ⟨upperHex_valid hlt, zeroForO_upperHex hlt⟩

theorem validChars_printHex (w : BitVec 32) (s : List (BitVec 8)) :
    validChars (printHex w ++ s) = printHex w ++ validChars s := by
  rw [validChars_append]
  refine congrArg (· ++ _) ?_
  rw [validChars, List.filter_eq_self.mpr fun c hc => decide_eq_true (mem_printHex hc).1]
  exact (List.map_congr_left fun c hc => (mem_printHex hc).2).trans (List.map_id _)

/-- The digits of a line. -/
def lineDigits (line : ArLine) : List (BitVec 8) := printHex line.1 ++ printHex line.2

theorem validChars_printLine (line : ArLine) : validChars (printLine line) = lineDigits line := by
  have hspace (s : List (BitVec 8)) : validChars (cchar ' ' :: s) = validChars s := rfl
  have hnewline : validChars [cchar '\n'] = [] := rfl
  rw [printLine, List.append_assoc, List.cons_append, validChars_printHex, hspace,
    validChars_printHex, hnewline, List.append_nil, lineDigits]

theorem length_printHex (w : BitVec 32) : (printHex w).length = 8 := by
  rw [printHex, List.length_map, length_digitsOf]

theorem length_lineDigits (line : ArLine) : (lineDigits line).length = 16 := by
  rw [lineDigits, List.length_append, length_printHex, length_printHex]

theorem scanHex_printHex (w : BitVec 32) : scanHex (printHex w) = w := by
  have hvalues : (printHex w).map hexValue = digitsOf 16 8 w.toNat := by
    rw [printHex, List.map_map]
    exact (List.map_congr_left fun d hd => hexValue_upperHex (lt_of_mem_digitsOf (by decide) hd)).trans
      (List.map_id _)
  have hmod : w.toNat % 16 ^ 8 = w.toNat := Nat.mod_eq_of_lt w.isLt
  rw [scanHex, hvalues, ofDigits_digitsOf, hmod, BitVec.ofNat_toNat, BitVec.setWidth_eq]

variable (item : CheatItem)

theorem validChars_getXXcodeString :
    validChars (getXXcodeString item) =
      (List.range item.num).flatMap fun i => lineDigits (item.code i) := by
  rw [getXXcodeString]
  induction List.range item.num with
  | nil => rfl
  | cons i l ih => rw [List.flatMap_cons, validChars_append, validChars_printLine, ih, List.flatMap_cons]

theorem length_validChars_getXXcodeString :
    (validChars (getXXcodeString item)).length = 16 * item.num := by
  rw [validChars_getXXcodeString, length_flatMap_of_length fun i => length_lineDigits (item.code i),
    List.length_range]

theorem scanLine_getXXcodeString {i : ℕ} (h : i < item.num) :
    scanLine (validChars (getXXcodeString item)) i = item.code i := by
  have hlength (i : ℕ) : (lineDigits (item.code i)).length = 16 := length_lineDigits _
  have hdrop : (validChars (getXXcodeString item)).drop (16 * i) =
      printHex (item.code i).1 ++ (printHex (item.code i).2 ++
        ((List.range item.num).drop (i + 1)).flatMap fun i => lineDigits (item.code i)) := by
    rw [validChars_getXXcodeString, drop_flatMap hlength,
      List.drop_eq_getElem_cons (by rw [List.length_range]; exact h), List.flatMap_cons,
      List.getElem_range, lineDigits, List.append_assoc]
  have htake (w : BitVec 32) (rest : List (BitVec 8)) : (printHex w ++ rest).take 8 = printHex w :=
    List.take_left' (length_printHex w)
  have hnext (w : BitVec 32) (rest : List (BitVec 8)) : (printHex w ++ rest).drop 8 = rest :=
    List.drop_left' (length_printHex w)
  rw [scanLine, ← List.drop_drop, hdrop, hnext, htake, htake, scanHex_printHex, scanHex_printHex]

theorem getXXcodeString_ne_zero : ∀ c ∈ getXXcodeString item, c ≠ 0#8 := by
  have hhex {w : BitVec 32} {c : BitVec 8} (hc : c ∈ printHex w) : c ≠ 0#8 := by
    rw [← (mem_printHex hc).2]
    exact zeroForO_ne_zero (mem_printHex hc).1
  intro c hc
  obtain ⟨i, -, hc⟩ := List.mem_flatMap.mp hc
  rw [printLine, List.mem_append, List.mem_append, List.mem_cons, List.mem_singleton] at hc
  rcases hc with (hc | rfl | hc) | rfl
  · exact hhex hc
  · decide
  · exact hhex hc
  · decide

end RoundTrip

/-- What is printed is read back, into any item. -/
def RoundTrips (item : CheatItem) : Prop :=
  ∀ behind target, ∃ result,
    parseCode behind target ⟨getXXcodeString item, getXXcodeString_ne_zero item⟩ =
        some (true, result) ∧
      result.num = item.num ∧ ∀ i < item.num, result.code i = item.code i

theorem roundTrips (item : CheatItem) : RoundTrips item := by
  intro behind target
  have hnum := item.num_le
  have hlength := length_validChars_getXXcodeString item
  have hcount : (validChars (getXXcodeString item)).length / 16 = item.num := by omega
  have hparse := parseCode_of_lt behind target ⟨getXXcodeString item, getXXcodeString_ne_zero item⟩
    (by rw [hlength, tmpSize]; omega)
  rw [dif_neg (by dsimp only; omega)] at hparse
  refine ⟨_, hparse, hcount, fun i hi => ?_⟩
  rw [CheatItem.withLines]
  dsimp only
  rw [if_pos (by omega), scanLine_getXXcodeString item hi]

/-- The codes are read back, and a string is read safely exactly if the digits fit into the code
array. -/
theorem codeStrings_iff (item : CheatItem) (s : CString) :
    RoundTrips item ∧ ParsesSafely s ↔ s.val.countP (· ∈ arValid) ≤ 16 * maxXxCode := by
  have hsize : tmpSize = 16 * maxXxCode + 1 := rfl
  rw [parsesSafely_iff, hsize, Nat.lt_succ_iff]
  exact and_iff_right (roundTrips item)

/-- The digits of one line more than the code array has. -/
def zeros : CString := ⟨List.replicate (16 * (maxXxCode + 1)) (cchar '0'), fun c hc => by
  rw [List.eq_of_mem_replicate hc]
  decide⟩

theorem zeros_not_parsesSafely : ¬ ParsesSafely zeros := by
  rw [parsesSafely_iff, zeros, List.countP_replicate, if_pos (by decide)]
  decide

end Desmume.Cheat
