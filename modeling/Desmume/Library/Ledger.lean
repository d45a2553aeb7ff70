import Desmume.Library.Literals
import Mathlib.Data.List.Basic
import Mathlib.Logic.Function.Basic

/-! Events that are entered in a log while what is due for them is charged elsewhere, and the runs in
which the charges are those of the log. -/

namespace Desmume.Library

variable {ε β σ : Type*}

structure Ledger (ε β : Type*) where
  entries : List ε
  balance : β

namespace Ledger

/-- An event happens. -/
def record (e : ε) (l : Ledger ε β) : Ledger ε β := { l with entries := l.entries ++ [e] }

/-- An event is charged. -/
def charge (pay : β → ε → β) (e : ε) (l : Ledger ε β) : Ledger ε β :=
  { l with balance := pay l.balance e }

/-- Between two ledgers the events `happened` and the events `charged`. -/
structure Moves (pay : β → ε → β) (l l' : Ledger ε β) (happened charged : List ε) : Prop where
  entries : l'.entries = l.entries ++ happened
  balance : l'.balance = charged.foldl pay l.balance

/-- What happened has been charged, in order. -/
def Settles (pay : β → ε → β) (l l' : Ledger ε β) : Prop := ∃ events, Moves pay l l' events events

variable {pay : β → ε → β} {l l' l'' : Ledger ε β} {happened charged happened' charged' : List ε}

theorem Moves.refl (l : Ledger ε β) : Moves pay l l [] [] :=
  ⟨(List.append_nil _).symm, rfl⟩

theorem moves_record (e : ε) (l : Ledger ε β) : Moves pay l (l.record e) [e] [] := ⟨rfl, rfl⟩

theorem Moves.trans (h : Moves pay l l' happened charged) (h' : Moves pay l' l'' happened' charged') :
    Moves pay l l'' (happened ++ happened') (charged ++ charged') := by
  constructor
  · rw [h'.entries, h.entries, List.append_assoc]
  · rw [h'.balance, h.balance, List.foldl_append]

theorem Settles.refl (l : Ledger ε β) : Settles pay l l := ⟨[], Moves.refl l⟩

theorem Settles.trans (h : Settles pay l l') (h' : Settles pay l' l'') : Settles pay l l'' := by
  obtain ⟨events, hmove⟩ := h
  obtain ⟨events', hmove'⟩ := h'
  exact ⟨events ++ events', hmove.trans hmove'⟩

/-- What happened is read off the log. -/
theorem settles_iff (h : Moves pay l l' happened charged) :
    Settles pay l l' ↔ charged.foldl pay l.balance = happened.foldl pay l.balance := by
  constructor
  · rintro ⟨events, hmove⟩
    have hevents : happened = events := List.append_cancel_left (h.entries.symm.trans hmove.entries)
    rw [← h.balance, hmove.balance, hevents]
  · intro heq
    exact ⟨happened, h.entries, h.balance.trans heq⟩

end Ledger

end Desmume.Library
