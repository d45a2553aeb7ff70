import Desmume.Library.LittleEndian
import Mathlib.Data.List.Basic
import Mathlib.Logic.Function.Basic

/-! A flat memory: a cell for every address, read and written in stretches. -/

namespace Desmume.Library

variable {α : Type*}

def load (m : ℕ → α) (v n : ℕ) : List α := (List.range' v n).map m

def store (m : ℕ → α) (v : ℕ) (bs : List α) : ℕ → α := fun a =>
  if v ≤ a then bs[a - v]?.getD (m a) else m a

@[simp] theorem length_load (m : ℕ → α) (v n : ℕ) : (load m v n).length = n := by
  rw [load, List.length_map, List.length_range']

theorem load_congr {m m' : ℕ → α} {v n : ℕ} (h : ∀ a, v ≤ a → a < v + n → m a = m' a) :
    load m v n = load m' v n := by
  refine List.map_congr_left fun a ha => ?_
  rw [List.mem_range'_1] at ha
  exact h a ha.1 ha.2

theorem store_of_lt (m : ℕ → α) {v a : ℕ} (bs : List α) (h : a < v) : store m v bs a = m a :=
  if_neg (by omega)

theorem store_of_le (m : ℕ → α) {v a : ℕ} {bs : List α} (h : v + bs.length ≤ a) :
    store m v bs a = m a := by
  rw [store, if_pos (by omega), List.getElem?_eq_none (by omega), Option.getD_none]

theorem load_store (m : ℕ → α) (v : ℕ) (bs : List α) :
    load (store m v bs) v bs.length = bs := by
  refine List.ext_getElem (length_load ..) fun i hi hi' => ?_
  simp only [load, List.getElem_map, List.getElem_range', Nat.one_mul, store]
  rw [if_pos (Nat.le_add_right v i), Nat.add_sub_cancel_left, List.getElem?_eq_getElem hi',
    Option.getD_some]

theorem store_nil (m : ℕ → α) (v : ℕ) : store m v [] = m := by
  funext a
  simp [store]

theorem store_cons (m : ℕ → α) (v : ℕ) (b : α) (bs : List α) :
    store m v (b :: bs) = store (Function.update m v b) (v + 1) bs := by
  funext a
  rcases Nat.lt_trichotomy a v with h | rfl | h
  · rw [store, store, if_neg (by omega), if_neg (by omega), Function.update_of_ne (by omega)]
  · rw [store, store, if_pos (Nat.le_refl a), if_neg (by omega), Function.update_self, Nat.sub_self]
    rfl
  · obtain ⟨k, rfl⟩ := Nat.exists_eq_add_of_lt h
    rw [store, store, if_pos (by omega), if_pos (by omega), Function.update_of_ne (by omega),
      show v + k + 1 - v = k + 1 by omega, show v + k + 1 - (v + 1) = k by omega,
      List.getElem?_cons_succ]

theorem store_load_apply (m m' : ℕ → α) (v n a : ℕ) :
    store m v (load m' v n) a = if v ≤ a ∧ a < v + n then m' a else m a := by
  by_cases hv : v ≤ a
  · by_cases ha : a < v + n
    · have hn : a - v < n := by omega
      rw [store, if_pos hv, if_pos ⟨hv, ha⟩, load, List.getElem?_map, List.getElem?_range' hn]
      simp only [Option.map_some, Option.getD_some, Nat.one_mul, Nat.add_sub_cancel' hv]
    · rw [store, if_pos hv, if_neg (fun h => ha h.2), List.getElem?_eq_none, Option.getD_none]
      rw [length_load]
      omega
  · rw [store, if_neg hv, if_neg (fun h => hv h.1)]

theorem store_replicate_apply (m : ℕ → α) (v n : ℕ) (z : α) (a : ℕ) :
    store m v (List.replicate n z) a = if v ≤ a ∧ a < v + n then z else m a := by
  have hload : List.replicate n z = load (fun _ => z) v n := by
    rw [load, List.map_const', List.length_range']
  rw [hload, store_load_apply]

theorem store_load (m : ℕ → α) (v n : ℕ) : store m v (load m v n) = m := by
  funext a
  rw [store_load_apply, ite_self]

/-- A store that changes nothing. -/
theorem store_eq_self_iff (m : ℕ → α) (v : ℕ) (bs : List α) :
    store m v bs = m ↔ load m v bs.length = bs := by
  constructor
  · intro h
    have hload := load_store m v bs
    rwa [h] at hload
  · intro h
    have hstore := store_load m v bs.length
    rwa [h] at hstore

theorem load_store_self (m m' : ℕ → α) (a b n : ℕ) :
    load (store m a (load m' b n)) a n = load m' b n := by
  have h := load_store m a (load m' b n)
  rwa [length_load] at h

theorem load_store_apart (m : ℕ → α) {a b n : ℕ} (bs : List α)
    (h : a + bs.length ≤ b ∨ b + n ≤ a) : load (store m a bs) b n = load m b n := by
  refine load_congr fun i hi hn => ?_
  rcases h with h | h
  · exact store_of_le m (by omega)
  · exact store_of_lt m bs (by omega)

theorem load_one (m : ℕ → α) (a : ℕ) : load m a 1 = [m a] := rfl

theorem load_add (m : ℕ → α) (a n k : ℕ) : load m a (n + k) = load m a n ++ load m (a + n) k := by
  rw [load, load, load, ← List.map_append, List.range'_append_1]

/-- What is held is held part by part. -/
theorem load_append_iff {m : ℕ → α} {a : ℕ} {as bs : List α} :
    load m a (as ++ bs).length = as ++ bs ↔
      load m a as.length = as ∧ load m (a + as.length) bs.length = bs := by
  rw [List.length_append, load_add]
  exact ⟨fun h => List.append_inj h (length_load ..), fun h => by rw [h.1, h.2]⟩

/-! ### Writes in order -/

section StoreAll

variable (m : ℕ → α) (base : ℕ)

/-- Writes at offsets from `base`, one after the other. -/
def storeAll (ws : List (ℕ × List α)) : ℕ → α :=
  ws.foldl (fun m w => store m (base + w.1) w.2) m

/-- Where a write begins and how long it is. -/
def span (w : ℕ × List α) : ℕ × ℕ := (w.1, w.2.length)

/-- No span meets the `n` cells from `a` on. -/
def Clear (spans : List (ℕ × ℕ)) (a n : ℕ) : Prop := ∀ s ∈ spans, s.1 + s.2 ≤ a ∨ a + n ≤ s.1

instance (spans : List (ℕ × ℕ)) (a n : ℕ) : Decidable (Clear spans a n) :=
  inferInstanceAs (Decidable (∀ s ∈ spans, _))

theorem storeAll_append (ws vs : List (ℕ × List α)) :
    storeAll m base (ws ++ vs) = storeAll (storeAll m base ws) base vs := List.foldl_append

variable {m base}

theorem load_storeAll_apart {ws : List (ℕ × List α)} {a n : ℕ}
    (h : ∀ s ∈ ws.map span, base + s.1 + s.2 ≤ a ∨ a + n ≤ base + s.1) :
    load (storeAll m base ws) a n = load m a n := by
  induction ws generalizing m with
  | nil => rfl
  | cons w ws ih =>
    have hfirst := h (span w) List.mem_cons_self
    exact (ih fun s hs => h s (List.mem_cons_of_mem _ hs)).trans (load_store_apart _ _ hfirst)

theorem load_storeAll_clear {ws : List (ℕ × List α)} {a n : ℕ} (h : Clear (ws.map span) a n) :
    load (storeAll m base ws) (base + a) n = load m (base + a) n := by
  refine load_storeAll_apart fun s hs => ?_
  have hclear := h s hs
  omega

/-- A write is still there when no later one meets it. -/
theorem load_storeAll_get {ws : List (ℕ × List α)} {k a : ℕ} {bs : List α}
    (hk : ws[k]? = some (a, bs)) (h : Clear ((ws.map span).drop (k + 1)) a bs.length) :
    load (storeAll m base ws) (base + a) bs.length = bs := by
  obtain ⟨hlt, hget⟩ := List.getElem?_eq_some_iff.1 hk
  have hsplit : ws = (ws.take k ++ [(a, bs)]) ++ ws.drop (k + 1) := by
    rw [← hget, ← List.take_succ_eq_append_getElem hlt, List.take_append_drop]
  rw [← List.map_drop] at h
  rw [hsplit, storeAll_append, load_storeAll_clear h, storeAll_append]
  exact load_store ..

end StoreAll

/-! ### Words of several bytes -/

section Words

def readWord (n : ℕ) (m : ℕ → BitVec 8) (v : ℕ) : BitVec (8 * n) :=
  BitVec.ofNat (8 * n) (ofLeBytes (load m v n))

def writeWord (n : ℕ) (m : ℕ → BitVec 8) (v : ℕ) (x : BitVec (8 * n)) : ℕ → BitVec 8 :=
  store m v (leBytes n x.toNat)

variable {n : ℕ} {m : ℕ → BitVec 8} {v : ℕ}

theorem writeWord_apply_of_lt {a : ℕ} (x : BitVec (8 * n)) (h : a < v) :
    writeWord n m v x a = m a := store_of_lt m _ h

theorem writeWord_apply_of_le {a : ℕ} (x : BitVec (8 * n)) (h : v + n ≤ a) :
    writeWord n m v x a = m a := by
  apply store_of_le
  rwa [length_leBytes]

theorem readWord_congr {m' : ℕ → BitVec 8} (h : ∀ a, v ≤ a → a < v + n → m a = m' a) :
    readWord n m v = readWord n m' v := by
  rw [readWord, readWord, load_congr h]

theorem readWord_writeWord_of_disjoint {k w : ℕ} (x : BitVec (8 * k))
    (h : v + n ≤ w ∨ w + k ≤ v) : readWord n (writeWord k m w x) v = readWord n m v := by
  refine readWord_congr fun a ha ha' => ?_
  rcases h with h | h
  · exact writeWord_apply_of_lt x (by omega)
  · exact writeWord_apply_of_le x (by omega)

@[simp] theorem readWord_writeWord (x : BitVec (8 * n)) :
    readWord n (writeWord n m v x) v = x := by
  have hload : load (writeWord n m v x) v n = leBytes n x.toNat := by
    have hbytes := load_store m v (leBytes n x.toNat)
    rwa [length_leBytes] at hbytes
  have hlt : x.toNat < 256 ^ n := by
    have hx := x.isLt
    rwa [Nat.pow_mul] at hx
  rw [readWord, hload, ofLeBytes_leBytes_of_lt hlt, BitVec.ofNat_toNat, BitVec.setWidth_eq]

end Words

end Desmume.Library
