import Mathlib.Order.Basic

/-!
# Runs of a deterministic machine

A machine takes its inputs one after another, and a property of a run is asked
of every step of it, in the state that the earlier steps have left. This file
gives the state after a run, properties that hold throughout a run, and the
rules by which they are proved: an invariant that every step keeps, and a
second machine that follows the first.
-/

namespace Acai

namespace Runs

variable {State Shadow Input : Type*}

def after (step : State → Input → State) (state : State) (inputs : List Input) : State :=
  inputs.foldl step state

/-- Every input of the run meets `property` in the state in which it is taken. -/
def Throughout (step : State → Input → State) (property : State → Input → Prop) :
    State → List Input → Prop
  | _, [] => True
  | state, input :: inputs =>
      property state input ∧ Throughout step property (step state input) inputs

variable {step : State → Input → State} {shadowStep : Shadow → Input → Shadow}
  {property : State → Input → Prop} {condition : Shadow → Input → Prop}

@[simp]
theorem after_nil (state : State) : after step state [] = state := rfl

@[simp]
theorem after_cons (state : State) (input : Input) (inputs : List Input) :
    after step state (input :: inputs) = after step (step state input) inputs := rfl

@[simp]
theorem after_append (state : State) (earlier later : List Input) :
    after step state (earlier ++ later) = after step (after step state earlier) later :=
  List.foldl_append

@[simp]
theorem throughout_nil (state : State) : Throughout step property state [] := trivial

@[simp]
theorem throughout_cons (state : State) (input : Input) (inputs : List Input) :
    Throughout step property state (input :: inputs) ↔
      property state input ∧ Throughout step property (step state input) inputs :=
  Iff.rfl

theorem throughout_append (state : State) (earlier later : List Input) :
    Throughout step property state (earlier ++ later) ↔
      Throughout step property state earlier ∧
        Throughout step property (after step state earlier) later := by
  induction earlier generalizing state with
  | nil => simp
  | cons input earlier ih => simp [ih, and_assoc]

theorem throughout_of_forall {inputs : List Input}
    (always : ∀ input ∈ inputs, ∀ state, property state input) (state : State) :
    Throughout step property state inputs := by
  induction inputs generalizing state with
  | nil => trivial
  | cons input inputs ih =>
      rw [List.forall_mem_cons] at always
      exact ⟨always.1 state, ih always.2 _⟩

theorem throughout_iff_of_simulation (related : State → Shadow → Prop)
    (agree : ∀ state shadow input, related state shadow →
      (property state input ↔ condition shadow input))
    (keeps : ∀ state shadow input, related state shadow → condition shadow input →
      related (step state input) (shadowStep shadow input))
    {state : State} {shadow : Shadow} (start : related state shadow) (inputs : List Input) :
    Throughout step property state inputs ↔ Throughout shadowStep condition shadow inputs := by
  induction inputs generalizing state shadow with
  | nil => simp
  | cons input inputs ih =>
      rw [throughout_cons, throughout_cons, agree state shadow input start]
      apply and_congr_right
      intro now
      exact ih (keeps state shadow input start now)

/-- What the inputs of a run do not undo still holds at its end. -/
theorem after_of_kept {holds : State → Prop} {inputs : List Input}
    (kept : ∀ input ∈ inputs, ∀ state, holds state → holds (step state input)) {state : State}
    (start : holds state) : holds (after step state inputs) := by
  induction inputs generalizing state with
  | nil => exact start
  | cons input inputs ih =>
      rw [List.forall_mem_cons] at kept
      exact ih kept.2 (kept.1 state start)

/-- What one input brings about, and none undoes, holds at the end of the run. -/
theorem after_of_mem {holds : State → Prop} {inputs : List Input} {input : Input}
    (input_mem : input ∈ inputs) (established : ∀ state, holds (step state input))
    (kept : ∀ other ∈ inputs, ∀ state, holds state → holds (step state other)) (state : State) :
    holds (after step state inputs) := by
  induction inputs generalizing state with
  | nil => cases input_mem
  | cons first inputs ih =>
      rw [List.forall_mem_cons] at kept
      rcases List.mem_cons.mp input_mem with rfl | later
      · exact after_of_kept kept.2 (established state)
      · exact ih later kept.2 _

/-- Where inputs overwrite the state, a run leaves it alone exactly if its last one that does so
writes what was there. -/
theorem after_overwrites_eq_iff {overwrites : ℕ → Prop} [DecidablePred overwrites]
    {value : ℕ → State} {state : State} {count : ℕ} :
    after (fun state index => if overwrites index then value index else state) state
        (List.range count) = state ↔
      ∀ index < count, overwrites index →
        (∀ later < count, index < later → ¬overwrites later) → state = value index := by
  induction count with
  | zero => exact iff_of_true rfl nofun
  | succ count ih =>
      rw [List.range_succ, after_append, after_cons, after_nil]
      split
      · rename_i last
        constructor
        · rintro same index index_lt - unwritten
          rcases Nat.lt_succ_iff_lt_or_eq.mp index_lt with before | rfl
          · exact absurd last (unwritten count (Nat.lt_succ_self count) before)
          · exact same.symm
        · intro all
          exact (all count (Nat.lt_succ_self count) last fun later later_lt behind =>
            absurd behind (Nat.not_lt.mpr (Nat.le_of_lt_succ later_lt))).symm
      · rename_i idle
        rw [ih]
        constructor
        · intro all index index_lt written unwritten
          have before : index < count := (Nat.lt_succ_iff_lt_or_eq.mp index_lt).resolve_right
            fun same => idle (same ▸ written)
          exact all index before written fun later later_lt =>
            unwritten later (Nat.lt_succ_of_lt later_lt)
        · intro all index index_lt written unwritten
          refine all index (Nat.lt_succ_of_lt index_lt) written fun later later_lt behind => ?_
          rcases Nat.lt_succ_iff_lt_or_eq.mp later_lt with before | rfl
          · exact unwritten later before behind
          · exact idle

/-- The invariant rule for one machine. -/
theorem after_invariant {invariant : State → Prop}
    (keeps : ∀ state input, invariant state → invariant (step state input)) {state : State}
    (start : invariant state) (inputs : List Input) : invariant (after step state inputs) :=
  after_of_kept (fun input _ state now => keeps state input now) start

end Runs

end Acai
