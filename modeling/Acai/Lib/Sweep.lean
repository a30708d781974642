import Mathlib.Data.List.TakeDrop
import Mathlib.Logic.Function.Basic

/-!
# Loops over the cells of an array

Many loops go over neighbouring cells of an array and change each of them, with an
input for every cell and an accumulator that moves on from cell to cell. Such a loop
changes the cells that it goes over, each by its own input and by the accumulator as
the inputs before have left it, and no other cell.
-/

namespace Acai

section Sweeping

variable {Input Acc Cell : Type*} (body : Acc → Input → Cell → Cell) (next : Acc → Input → Acc)

/-- The loop from the cell at `place` on. -/
def sweep : List Input → ℕ → Acc → (ℕ → Cell) → Acc × (ℕ → Cell)
  | [], _, acc, cells => (acc, cells)
  | input :: inputs, place, acc, cells =>
      sweep inputs (place + 1) (next acc input)
        (Function.update cells place (body acc input (cells place)))

/-- The cells after the loop. -/
def swept (inputs : List Input) (place : ℕ) (acc : Acc) (cells : ℕ → Cell) : ℕ → Cell :=
  (sweep body next inputs place acc cells).2

variable {body next} {inputs : List Input} {place : ℕ} {acc : Acc} {cells : ℕ → Cell}

theorem sweep_fst : (sweep body next inputs place acc cells).1 = inputs.foldl next acc := by
  induction inputs generalizing place acc cells with
  | nil => rfl
  | cons input inputs ih => exact ih

theorem swept_outside {other : ℕ} (outside : other < place ∨ place + inputs.length ≤ other) :
    swept body next inputs place acc cells other = cells other := by
  rw [swept]
  induction inputs generalizing place acc cells with
  | nil => rfl
  | cons input inputs ih =>
      rw [List.length_cons] at outside
      rw [sweep, ih (by omega), Function.update_of_ne (by omega)]

theorem swept_inside {index : ℕ} (lt : index < inputs.length) :
    swept body next inputs place acc cells (place + index) =
      body ((inputs.take index).foldl next acc) inputs[index] (cells (place + index)) := by
  rw [swept]
  induction inputs generalizing place acc cells index with
  | nil => exact absurd lt (Nat.not_lt_zero _)
  | cons input inputs ih =>
      rw [sweep]
      cases index with
      | zero =>
          have first := @swept_outside _ _ _ body next inputs (place + 1) (next acc input)
            (Function.update cells place (body acc input (cells place))) place
            (Or.inl (Nat.lt_succ_self _))
          rw [swept, Function.update_self] at first
          exact first
      | succ index =>
          have rest := @ih (place + 1) (next acc input)
            (Function.update cells place (body acc input (cells place))) index
            (Nat.lt_of_succ_lt_succ lt)
          rw [Function.update_of_ne (by omega), Nat.add_assoc, Nat.add_comm 1] at rest
          exact rest

end Sweeping

end Acai
