import Desmume.Library.Run
import Mathlib.Logic.Function.Basic

/-! A register file whose registers are banked: the cell a register names depends on the
mode. `owner` gives that cell, and gives none for a register the mode does not have. -/

namespace Desmume.Library

variable {Mode Reg Cell Val : Type*}

structure BankedFile (Mode Cell Val : Type*) where
  mode : Mode
  cell : Cell → Val

inductive BankOp (Mode Reg Val : Type*) where
  | switch (mode : Mode)
  | write (reg : Reg) (v : Val)
deriving DecidableEq

namespace BankedFile

variable [DecidableEq Cell] (owner : Mode → Reg → Option Cell)

def setCell (f : BankedFile Mode Cell Val) (c : Option Cell) (v : Val) :
    BankedFile Mode Cell Val :=
  match c with
  | none => f
  | some c => { f with cell := Function.update f.cell c v }

def step (f : BankedFile Mode Cell Val) : BankOp Mode Reg Val → BankedFile Mode Cell Val
  | .switch mode => { f with mode }
  | .write reg v => f.setCell (owner f.mode reg) v

/-- The mode a run of operations ends in. -/
def modeAfter : Mode → List (BankOp Mode Reg Val) → Mode
  | m, [] => m
  | _, .switch m :: ops => modeAfter m ops
  | m, .write _ _ :: ops => modeAfter m ops

/-- The last value the operations write to the cell `c`, each register taken in the mode it
is written in. -/
def lastWrite (c : Cell) : Mode → List (BankOp Mode Reg Val) → Option Val
  | _, [] => none
  | _, .switch m :: ops => lastWrite c m ops
  | m, .write reg v :: ops =>
    (lastWrite c m ops).or (if owner m reg = some c then some v else none)

@[simp] theorem setCell_mode (f : BankedFile Mode Cell Val) (c : Option Cell) (v : Val) :
    (f.setCell c v).mode = f.mode := by
  cases c <;> rfl

theorem setCell_cell (f : BankedFile Mode Cell Val) (o : Option Cell) (v : Val) (c : Cell) :
    (f.setCell o v).cell c = if o = some c then v else f.cell c := by
  cases o with
  | none => rfl
  | some o => simp only [setCell, Function.update_apply, Option.some.injEq, eq_comm]

theorem run_mode (f : BankedFile Mode Cell Val) (ops : List (BankOp Mode Reg Val)) :
    (run (step owner) f ops).mode = modeAfter f.mode ops := by
  induction ops generalizing f with
  | nil => rfl
  | cons op ops ih =>
    rw [run_cons, ih]
    cases op with
    | switch m => rfl
    | write reg v => rw [step, setCell_mode, modeAfter]

/-- A cell holds what was last written to it, in whatever mode that was. -/
theorem run_cell (f : BankedFile Mode Cell Val) (ops : List (BankOp Mode Reg Val)) (c : Cell) :
    (run (step owner) f ops).cell c = (lastWrite owner c f.mode ops).getD (f.cell c) := by
  induction ops generalizing f with
  | nil => rfl
  | cons op ops ih =>
    rw [run_cons, ih]
    cases op with
    | switch m => rfl
    | write reg v =>
      rw [step, setCell_mode, setCell_cell, lastWrite]
      cases lastWrite owner c f.mode ops with
      | none =>
        rw [Option.none_or]
        split <;> rfl
      | some w => rfl

end BankedFile

end Desmume.Library
