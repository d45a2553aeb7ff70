import Desmume.Library.Literals
import Mathlib.Data.List.TakeDrop

/-! A file as a list of cells, a position and a fail bit. Cells that were never written hold
zero. -/

namespace Desmume.Library

variable {α : Type*}

theorem takeD_eq_append (n : ℕ) (l : List α) (z : α) :
    l.takeD n z = l.take n ++ List.replicate (n - l.length) z := by
  induction n generalizing l with
  | zero => simp
  | succ n ih =>
    cases l with
    | nil => simp [List.replicate_succ]
    | cons a l => simp [ih]

theorem takeD_add (m n : ℕ) (l : List α) (z : α) :
    l.takeD (m + n) z = l.takeD m z ++ (l.drop m).takeD n z := by
  induction m generalizing l with
  | zero => simp
  | succ m ih =>
    rw [Nat.succ_add]
    cases l with
    | nil => simp
    | cons a l => simp [ih]

section Splice

variable [Zero α]

/-- Overwrite from `pos` on; a gap behind the end is filled with zeros. -/
def splice (data : List α) (pos : ℕ) (bs : List α) : List α :=
  data.takeD pos 0 ++ bs ++ data.drop (pos + bs.length)

theorem length_splice (data : List α) (pos : ℕ) (bs : List α) :
    (splice data pos bs).length = max (pos + bs.length) data.length := by
  simp only [splice, List.length_append, List.takeD_length, List.length_drop]
  omega

theorem splice_splice (data : List α) (pos : ℕ) (as bs : List α) :
    splice (splice data pos as) (pos + as.length) bs = splice data pos (as ++ bs) := by
  have htake : (splice data pos as).takeD (pos + as.length) 0 = data.takeD pos 0 ++ as := by
    rw [splice, List.takeD_left']
    rw [List.length_append, List.takeD_length]
  have hdrop : (splice data pos as).drop (pos + as.length + bs.length) =
      data.drop (pos + (as ++ bs).length) := by
    have hlen : (data.takeD pos 0 ++ as).length = pos + as.length := by
      rw [List.length_append, List.takeD_length]
    rw [splice, List.drop_append, List.drop_eq_nil_of_le (by omega), hlen, List.nil_append,
      List.drop_drop, List.length_append]
    congr 1
    omega
  rw [splice, htake, hdrop, splice, List.append_assoc (data.takeD pos 0)]

/-- A part written first and the part in front of it written after it. -/
theorem splice_before (data : List α) (pos : ℕ) (bs cs : List α) :
    splice (splice data (pos + bs.length) cs) pos bs = splice data pos (bs ++ cs) := by
  have htake : (splice data (pos + bs.length) cs).takeD pos 0 = data.takeD pos 0 := by
    have hsplit : data.takeD (pos + bs.length) 0 =
        data.takeD pos 0 ++ (data.drop pos).takeD bs.length 0 := takeD_add ..
    rw [splice, hsplit, List.append_assoc, List.append_assoc,
      List.takeD_left' (List.takeD_length ..)]
  have hdrop : (splice data (pos + bs.length) cs).drop (pos + bs.length) =
      cs ++ data.drop (pos + (bs ++ cs).length) := by
    rw [splice, List.append_assoc, List.drop_left' (List.takeD_length ..), List.length_append,
      Nat.add_assoc]
  rw [splice, htake, hdrop, splice, List.append_assoc, List.append_assoc, List.append_assoc]

theorem drop_splice (data : List α) (pos : ℕ) (bs : List α) :
    (splice data pos bs).drop pos = bs ++ data.drop (pos + bs.length) := by
  rw [splice, List.append_assoc, List.drop_left' (List.takeD_length ..)]

theorem take_append_zeros (data : List α) {pos k : ℕ} (h : pos ≤ data.length + k) :
    (data ++ List.replicate k 0).take pos = data.takeD pos 0 := by
  rw [List.take_append, List.take_replicate, takeD_eq_append, Nat.min_eq_left (by omega)]

theorem drop_append_zeros (data : List α) (pos k : ℕ) :
    (data ++ List.replicate k 0).drop pos =
      data.drop pos ++ List.replicate (k - (pos - data.length)) 0 := by
  rw [List.drop_append, List.drop_replicate]

theorem getElem?_splice_before (data : List α) {pos i : ℕ} (bs : List α) (h : i < pos)
    (hi : i < data.length) : (splice data pos bs)[i]? = data[i]? := by
  rw [splice, List.append_assoc, List.getElem?_append_left (by rwa [List.takeD_length]),
    takeD_eq_append, List.getElem?_append_left, List.getElem?_take_of_lt h]
  rw [List.length_take]
  omega

theorem getElem?_splice_at (data : List α) (pos k : ℕ) {bs : List α} (h : k < bs.length) :
    (splice data pos bs)[pos + k]? = bs[k]? := by
  rw [← List.getElem?_drop, drop_splice, List.getElem?_append_left h]

theorem getElem?_splice_behind (data : List α) {pos i : ℕ} {bs : List α}
    (h : pos + bs.length ≤ i) : (splice data pos bs)[i]? = data[i]? := by
  rw [splice, List.getElem?_append_right, List.getElem?_drop]
  · congr 1
    rw [List.length_append, List.takeD_length]
    omega
  · rw [List.length_append, List.takeD_length]
    exact h

/-- A write within the data changes what it covers and nothing else. -/
theorem getElem?_splice_within {data bs : List α} {pos : ℕ} (h : pos + bs.length ≤ data.length) (i : ℕ) :
    (splice data pos bs)[i]? =
      if pos ≤ i ∧ i < pos + bs.length then bs[i - pos]? else data[i]? := by
  split_ifs with hin
  · obtain ⟨k, rfl⟩ := Nat.exists_eq_add_of_le hin.1
    rw [getElem?_splice_at _ _ _ (by omega), Nat.add_sub_cancel_left]
  · rcases Nat.lt_or_ge i pos with hlow | hhigh
    · exact getElem?_splice_before _ _ hlow (by omega)
    · exact getElem?_splice_behind _ (by omega)

end Splice

/-- A file over its data. -/
structure ByteFile (α : Type*) where
  data : List α
  pos : ℕ
  fail : Bool
  deriving DecidableEq

namespace ByteFile

variable (b : ByteFile α)

def readData (n : ℕ) : List α := (b.data.drop b.pos).take n

def read (n : ℕ) : ByteFile α :=
  { b with
    pos := b.pos + (b.readData n).length
    fail := b.fail || decide ((b.readData n).length < n) }

def seek (pos : ℕ) : ByteFile α := { b with pos := pos }

theorem length_readData (n : ℕ) :
    (b.readData n).length = min n (b.data.length - b.pos) := by
  rw [readData, List.length_take, List.length_drop]

/-- Reading goes on where the last reading would have ended in a file without an end. -/
theorem drop_read {a : ℕ} (h : b.data.drop b.pos = b.data.drop a) (n : ℕ) :
    (b.read n).data.drop (b.read n).pos = b.data.drop (a + n) := by
  have hlength : (b.readData n).length = min n (b.data.drop a).length := by
    rw [readData, h, List.length_take]
  change b.data.drop (b.pos + (b.readData n).length) = _
  rw [← List.drop_drop, h, ← List.drop_drop, hlength]
  rcases Nat.le_total n (b.data.drop a).length with hle | hle
  · rw [Nat.min_eq_left hle]
  · rw [Nat.min_eq_right hle, List.drop_length, List.drop_eq_nil_of_le hle]

/-- The file holds `bs` from its position on. -/
def Holds (bs : List α) : Prop := ∃ rest, b.data.drop b.pos = bs ++ rest

variable {b}

theorem holds_iff {bs : List α} : b.Holds bs ↔ b.readData bs.length = bs := by
  constructor
  · rintro ⟨rest, h⟩
    rw [readData, h, List.take_left]
  · intro h
    refine ⟨(b.data.drop b.pos).drop bs.length, ?_⟩
    calc b.data.drop b.pos = b.readData bs.length ++ (b.data.drop b.pos).drop bs.length :=
          (List.take_append_drop ..).symm
      _ = _ := by rw [h]

theorem Holds.left {as bs : List α} (h : b.Holds (as ++ bs)) : b.Holds as := by
  obtain ⟨rest, h⟩ := h
  exact ⟨bs ++ rest, h.trans (List.append_assoc ..)⟩

theorem Holds.right {as bs : List α} (h : b.Holds (as ++ bs)) :
    (b.seek (b.pos + as.length)).Holds bs := by
  obtain ⟨rest, h⟩ := h
  refine ⟨rest, ?_⟩
  rw [seek, ← List.drop_drop, h, List.append_assoc, List.drop_left]

/-- Reading what the file holds moves the position past it and leaves the fail bit. -/
theorem Holds.read {bs : List α} (h : b.Holds bs) :
    b.read bs.length = b.seek (b.pos + bs.length) := by
  simp [ByteFile.read, holds_iff.mp h, seek]

theorem Holds.pos_le {bs : List α} (h : b.Holds bs) (hne : bs ≠ []) :
    b.pos + bs.length ≤ b.data.length := by
  obtain ⟨rest, h⟩ := h
  have hlen := congrArg List.length h
  have hpos := List.length_pos_iff.mpr hne
  rw [List.length_drop, List.length_append] at hlen
  omega

section Write

variable [Zero α] (b)

def write (bs : List α) : ByteFile α :=
  { b with data := splice b.data b.pos bs, pos := b.pos + bs.length }

def truncate (length : ℕ) : ByteFile α :=
  { b with data := b.data.takeD length 0, pos := min b.pos length }

theorem write_write (as bs : List α) : (b.write as).write bs = b.write (as ++ bs) := by
  simp only [write, splice_splice, List.length_append, Nat.add_assoc]

/-- A gap that is left open and filled in after what follows it. -/
theorem write_gap (as bs cs : List α) :
    (((((b.write as).seek (b.pos + as.length + bs.length)).write cs).seek
      (b.pos + as.length)).write bs).seek (b.pos + as.length + bs.length + cs.length) =
      b.write (as ++ (bs ++ cs)) := by
  have hdata := splice_before (splice b.data b.pos as) (b.pos + as.length) bs cs
  rw [splice_splice, Nat.add_assoc] at hdata
  simp only [write, seek, hdata, List.length_append, Nat.add_assoc]

theorem length_write_data (bs : List α) :
    (b.write bs).data.length = max (b.pos + bs.length) b.data.length :=
  length_splice ..

/-- One write after the other. -/
def writeAll (bss : List (List α)) : ByteFile α :=
  bss.foldl (fun b bs => b.write bs) b

theorem writeAll_cons (bs : List α) (bss : List (List α)) :
    b.writeAll (bs :: bss) = b.write (bs ++ bss.flatten) := by
  induction bss generalizing b bs with
  | nil => rw [List.flatten_nil, List.append_nil, writeAll, List.foldl_cons, List.foldl_nil]
  | cons cs bss ih =>
    rw [writeAll, List.foldl_cons, ← writeAll, ih, write_write, List.flatten_cons]

theorem pos_le_length_write (bs : List α) : (b.write bs).pos ≤ (b.write bs).data.length := by
  rw [length_write_data]
  exact Nat.le_max_left ..

theorem write_nil {b : ByteFile α} (h : b.pos ≤ b.data.length) : b.write [] = b := by
  have hsame : splice b.data b.pos [] = b.data := by
    rw [splice, List.takeD_eq_take _ h, List.append_nil, List.length_nil, Nat.add_zero,
      List.take_append_drop]
  rw [write, hsame]
  rfl

theorem writeAll_eq_write {b : ByteFile α} (h : b.pos ≤ b.data.length) (bss : List (List α)) :
    b.writeAll bss = b.write bss.flatten := by
  cases bss with
  | nil => exact (write_nil h).symm
  | cons bs bss => rw [writeAll_cons, List.flatten_cons]

theorem write_holds (bs : List α) : ((b.write bs).seek b.pos).Holds bs :=
  ⟨_, drop_splice b.data b.pos bs⟩

theorem writeAll_pos (bss : List (List α)) : (b.writeAll bss).pos = b.pos + bss.flatten.length := by
  cases bss with
  | nil => rfl
  | cons bs bss => rw [writeAll_cons, write, List.flatten_cons]

theorem writeAll_fail (bss : List (List α)) : (b.writeAll bss).fail = b.fail := by
  cases bss with
  | nil => rfl
  | cons bs bss => rw [writeAll_cons, write]

theorem writeAll_holds (bss : List (List α)) : ((b.writeAll bss).seek b.pos).Holds bss.flatten := by
  cases bss with
  | nil => exact ⟨_, rfl⟩
  | cons bs bss =>
    rw [writeAll_cons, List.flatten_cons]
    exact b.write_holds _

end Write

end ByteFile

end Desmume.Library
