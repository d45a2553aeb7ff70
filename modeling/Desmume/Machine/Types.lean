import Desmume.Library.Run

/-! The two processors of the console and the C integer conversions the emulator relies on. -/

namespace Desmume

/-- `ARMCPU_ARM9` and `ARMCPU_ARM7`. -/
inductive Proc where
  | arm9
  | arm7
deriving DecidableEq, Repr

/-- `proc ^ 1`. -/
def Proc.remote : Proc → Proc
  | .arm9 => .arm7
  | .arm7 => .arm9

@[simp] theorem Proc.remote_remote (p : Proc) : p.remote.remote = p := by cases p <;> rfl

@[simp] theorem Proc.remote_ne (p : Proc) : p.remote ≠ p := by cases p <;> decide

@[simp] theorem Proc.ne_remote (p : Proc) : p ≠ p.remote := by cases p <;> decide

theorem Proc.eq_or_eq_remote (p q : Proc) : q = p ∨ q = p.remote := by
  cases p <;> cases q <;> decide

end Desmume
