import Mathlib.Algebra.BigOperators.Group.List.Basic
import Mathlib.Algebra.Order.Group.Int
import Mathlib.Algebra.Ring.Int.Defs

/-!
# Routines with early returns

A C function often returns from the middle, and what it leaves undone depends on
where. A routine is the record of one call: the acts that it made, in order, and
either the value that it has returned early or the value with which it goes on.

A weight says what an act adds to a counter, such as a lock depth. Where no part of
a routine lowers the counter, the routine as a whole leaves it alone exactly if
every part that is reached does (`total_bind_eq_zero_iff`, `total_loop_eq_zero_iff`).
-/

namespace Acai

@[ext]
structure Routine (Act Ret α : Type) where
  acts : List Act
  /-- An error is a value that has been returned early. -/
  result : Except Ret α

namespace Routine

variable {Act Ret α β σ : Type}

def bind (routine : Routine Act Ret α) (next : α → Routine Act Ret β) : Routine Act Ret β :=
  match routine.result with
  | .error ret => ⟨routine.acts, .error ret⟩
  | .ok value => ⟨routine.acts ++ (next value).acts, (next value).result⟩

instance : Monad (Routine Act Ret) where
  pure value := ⟨[], .ok value⟩
  bind := bind

/-- Make one act and go on. -/
def act (one : Act) : Routine Act Ret Unit := ⟨[one], .ok ()⟩

def leaveIf (bad : Prop) [Decidable bad] (ret : Ret) : Routine Act Ret Unit :=
  ⟨[], if bad then .error ret else .ok ()⟩

def orLeave (value : Option α) (ret : Ret) : Routine Act Ret α :=
  ⟨[], value.elim (.error ret) .ok⟩

/-- The iterations below `count`, each of which takes the variables that the last one has left. -/
def loop (body : ℕ → σ → Routine Act Ret σ) (vars : σ) : ℕ → Routine Act Ret σ
  | 0 => pure vars
  | count + 1 => loop body vars count >>= body count

theorem bind_def (routine : Routine Act Ret α) (next : α → Routine Act Ret β) :
    routine >>= next = routine.bind next := rfl

/-! ## Results -/

theorem result_bind_ok_iff {routine : Routine Act Ret α} {next : α → Routine Act Ret β}
    {value : β} :
    (routine >>= next).result = .ok value ↔
      ∃ first, routine.result = .ok first ∧ (next first).result = .ok value := by
  rw [bind_def, bind]
  rcases routine.result with ret | first
  · exact iff_of_false nofun (by rintro ⟨_, ⟨⟩, _⟩)
  · constructor
    · exact fun returned => ⟨first, rfl, returned⟩
    · rintro ⟨_, ⟨⟩, returned⟩
      exact returned

@[simp]
theorem result_pure_ok_iff {first value : α} :
    (pure first : Routine Act Ret α).result = .ok value ↔ first = value :=
  ⟨Except.ok.inj, congrArg _⟩

@[simp]
theorem result_act_ok_iff {one : Act} {value : Unit} :
    (act one : Routine Act Ret Unit).result = .ok value ↔ True :=
  iff_of_true rfl trivial

@[simp]
theorem result_leaveIf_ok_iff {bad : Prop} [Decidable bad] {ret : Ret} {value : Unit} :
    (leaveIf bad ret : Routine Act Ret Unit).result = .ok value ↔ ¬bad := by
  rw [leaveIf]
  split
  · exact iff_of_false nofun (not_not.mpr ‹_›)
  · exact iff_of_true rfl ‹_›

@[simp]
theorem result_orLeave_ok_iff {option : Option α} {ret : Ret} {value : α} :
    (orLeave option ret : Routine Act Ret α).result = .ok value ↔ option = some value := by
  cases option with
  | none => exact iff_of_false nofun nofun
  | some first => exact ⟨fun same => congrArg _ (Except.ok.inj same),
      fun same => congrArg _ (Option.some.inj same)⟩

/-! ## Acts -/

@[simp]
theorem acts_pure (value : α) : (pure value : Routine Act Ret α).acts = [] := rfl

@[simp]
theorem acts_act (one : Act) : (act one : Routine Act Ret Unit).acts = [one] := rfl

@[simp]
theorem acts_leaveIf (bad : Prop) [Decidable bad] (ret : Ret) :
    (leaveIf bad ret : Routine Act Ret Unit).acts = [] := rfl

@[simp]
theorem acts_orLeave (value : Option α) (ret : Ret) :
    (orLeave value ret : Routine Act Ret α).acts = [] := rfl

theorem mem_acts_bind_iff {routine : Routine Act Ret α} {next : α → Routine Act Ret β}
    {one : Act} :
    one ∈ (routine >>= next).acts ↔
      one ∈ routine.acts ∨ ∃ value, routine.result = .ok value ∧ one ∈ (next value).acts := by
  rw [bind_def, bind]
  rcases routine.result with ret | value
  · exact (or_iff_left (by rintro ⟨_, ⟨⟩, _⟩)).symm
  · simp only [List.mem_append, Except.ok.injEq, exists_eq_left']

/-- The acts of a loop are those of the iterations that are reached. -/
theorem mem_acts_loop_iff {body : ℕ → σ → Routine Act Ret σ} {vars : σ} {count : ℕ} {one : Act} :
    one ∈ (loop body vars count).acts ↔
      ∃ index < count, ∃ reached, (loop body vars index).result = .ok reached ∧
        one ∈ (body index reached).acts := by
  induction count with
  | zero => exact iff_of_false nofun (by rintro ⟨_, ⟨⟩, _⟩)
  | succ count ih =>
      rw [loop, mem_acts_bind_iff, ih]
      constructor
      · rintro (⟨index, index_lt, made⟩ | made)
        · exact ⟨index, Nat.lt_succ_of_lt index_lt, made⟩
        · exact ⟨count, Nat.lt_succ_self count, made⟩
      · rintro ⟨index, index_lt, made⟩
        rcases Nat.lt_succ_iff_lt_or_eq.mp index_lt with before | rfl
        · exact Or.inl ⟨index, before, made⟩
        · exact Or.inr made

/-! ## The state behind the acts -/

section Steps

variable {State : Type} {step : State → Act → State}

theorem foldl_bind_of_ok {routine : Routine Act Ret α} {next : α → Routine Act Ret β} {value : α}
    (goesOn : routine.result = .ok value) (state : State) :
    (routine >>= next).acts.foldl step state =
      (next value).acts.foldl step (routine.acts.foldl step state) := by
  rw [bind_def, bind, goesOn, List.foldl_append]

@[simp]
theorem foldl_act_bind (one : Act) (next : Unit → Routine Act Ret β) (state : State) :
    (act one >>= next).acts.foldl step state = (next ()).acts.foldl step (step state one) :=
  foldl_bind_of_ok rfl state

theorem foldl_leaveIf_bind_of_not {bad : Prop} [Decidable bad] {ret : Ret}
    {next : Unit → Routine Act Ret β} (good : ¬bad) (state : State) :
    (leaveIf bad ret >>= next).acts.foldl step state = (next ()).acts.foldl step state := by
  have goesOn : (leaveIf bad ret : Routine Act Ret Unit).result = .ok () :=
    result_leaveIf_ok_iff.mpr good
  rw [foldl_bind_of_ok goesOn, acts_leaveIf, List.foldl_nil]

/-- If each iteration makes one step of its own, then a loop that comes to its end makes these
steps one after another. -/
theorem foldl_loop_of_ok {body : ℕ → σ → Routine Act Ret σ} {vars last : σ} {count : ℕ}
    {stepOf : State → ℕ → State} (returns : (loop body vars count).result = .ok last)
    (each : ∀ index < count, ∀ reached after, (loop body vars index).result = .ok reached →
      (body index reached).result = .ok after →
        ∀ state, (body index reached).acts.foldl step state = stepOf state index)
    (state : State) :
    (loop body vars count).acts.foldl step state = (List.range count).foldl stepOf state := by
  induction count generalizing last with
  | zero => rfl
  | succ count ih =>
      rw [loop, result_bind_ok_iff] at returns
      rcases returns with ⟨reached, earlier, ends⟩
      have before := ih earlier fun index index_lt => each index (Nat.lt_succ_of_lt index_lt)
      rw [loop, foldl_bind_of_ok earlier, before, List.range_succ, List.foldl_append,
        each count (Nat.lt_succ_self count) reached last earlier ends]
      rfl

end Steps

/-! ## Routines without acts -/

def Silent (routine : Routine Act Ret α) : Prop := routine.acts = []

theorem silent_pure (value : α) : (pure value : Routine Act Ret α).Silent := rfl

theorem silent_leaveIf (bad : Prop) [Decidable bad] (ret : Ret) :
    (leaveIf bad ret : Routine Act Ret Unit).Silent := rfl

theorem silent_orLeave (option : Option α) (ret : Ret) :
    (orLeave option ret : Routine Act Ret α).Silent := rfl

theorem Silent.bind {routine : Routine Act Ret α} {next : α → Routine Act Ret β}
    (silent : routine.Silent) (rest : ∀ value, (next value).Silent) :
    (routine >>= next).Silent := by
  rw [Silent, bind_def, Routine.bind]
  rcases routine.result with ret | value
  · exact silent
  · exact List.append_eq_nil_iff.mpr ⟨silent, rest value⟩

/-! ## Counters -/

/-- What the acts of a routine add up to. -/
def total (weight : Act → ℤ) (routine : Routine Act Ret α) : ℤ := (routine.acts.map weight).sum

section Totals

variable {weight : Act → ℤ} {routine : Routine Act Ret α} {next : α → Routine Act Ret β}

theorem Silent.total (silent : routine.Silent) : routine.total weight = 0 := by
  rw [Routine.total, silent]
  rfl

@[simp]
theorem total_pure (value : α) : (pure value : Routine Act Ret α).total weight = 0 := rfl

@[simp]
theorem total_act (one : Act) : (act one : Routine Act Ret Unit).total weight = weight one := by
  simp [total, act]

@[simp]
theorem total_leaveIf (bad : Prop) [Decidable bad] (ret : Ret) :
    (leaveIf bad ret : Routine Act Ret Unit).total weight = 0 := rfl

@[simp]
theorem total_orLeave (option : Option α) (ret : Ret) :
    (orLeave option ret : Routine Act Ret α).total weight = 0 := rfl

theorem total_bind_of_ok {value : α} (goesOn : routine.result = .ok value) :
    (routine >>= next).total weight = routine.total weight + (next value).total weight := by
  rw [bind_def, bind, goesOn, total, total, total, List.map_append, List.sum_append]

theorem total_bind_of_error {ret : Ret} (leaves : routine.result = .error ret) :
    (routine >>= next).total weight = routine.total weight := by
  rw [bind_def, bind, leaves]
  rfl

@[simp]
theorem total_act_bind (one : Act) (next : Unit → Routine Act Ret β) :
    (act one >>= next).total weight = weight one + (next ()).total weight := by
  have goesOn : (act one : Routine Act Ret Unit).result = .ok () := rfl
  rw [total_bind_of_ok goesOn, total_act]

@[simp]
theorem total_leaveIf_bind (bad : Prop) [Decidable bad] (ret : Ret)
    (next : Unit → Routine Act Ret β) :
    (leaveIf bad ret >>= next).total weight = if bad then 0 else (next ()).total weight := by
  by_cases isBad : bad
  · have leaves : (leaveIf bad ret : Routine Act Ret Unit).result = .error ret := if_pos isBad
    rw [if_pos isBad, total_bind_of_error leaves, total_leaveIf]
  · have goesOn : (leaveIf bad ret : Routine Act Ret Unit).result = .ok () := if_neg isBad
    rw [if_neg isBad, total_bind_of_ok goesOn, total_leaveIf, Int.zero_add]

theorem total_bind_nonneg (first : 0 ≤ routine.total weight)
    (rest : ∀ value, 0 ≤ (next value).total weight) : 0 ≤ (routine >>= next).total weight := by
  rcases result : routine.result with ret | value
  · rw [total_bind_of_error result]
    exact first
  · rw [total_bind_of_ok result]
    exact Int.add_nonneg first (rest value)

theorem total_bind_eq_zero (first : routine.total weight = 0)
    (rest : ∀ value, (next value).total weight = 0) : (routine >>= next).total weight = 0 := by
  rcases result : routine.result with ret | value
  · rw [total_bind_of_error result, first]
  · rw [total_bind_of_ok result, first, rest, Int.add_zero]

theorem total_bind_of_rest (rest : ∀ value, (next value).total weight = 0) :
    (routine >>= next).total weight = routine.total weight := by
  rcases result : routine.result with ret | value
  · rw [total_bind_of_error result]
  · rw [total_bind_of_ok result, rest, Int.add_zero]

/-- Behind checks that do nothing, it is the rest that counts. -/
theorem Silent.total_bind_eq_zero_iff (silent : routine.Silent) :
    (routine >>= next).total weight = 0 ↔
      ∀ value, routine.result = .ok value → (next value).total weight = 0 := by
  rcases result : routine.result with ret | value
  · rw [total_bind_of_error result, silent.total]
    exact iff_of_true rfl nofun
  · rw [total_bind_of_ok result, silent.total, Int.zero_add]
    simp only [Except.ok.injEq, forall_eq']

/-- A counter that is never lowered is left alone by both parts, as far as they are reached. -/
theorem total_bind_eq_zero_iff (first : 0 ≤ routine.total weight)
    (rest : ∀ value, 0 ≤ (next value).total weight) :
    (routine >>= next).total weight = 0 ↔
      routine.total weight = 0 ∧
        ∀ value, routine.result = .ok value → (next value).total weight = 0 := by
  rcases result : routine.result with ret | value
  · rw [total_bind_of_error result]
    simp
  · rw [total_bind_of_ok result]
    have later := rest value
    simp only [Except.ok.injEq, forall_eq']
    omega

theorem total_loop_nonneg {body : ℕ → σ → Routine Act Ret σ} (vars : σ)
    (each : ∀ index vars, 0 ≤ (body index vars).total weight) (count : ℕ) :
    0 ≤ (loop body vars count).total weight := by
  induction count with
  | zero => exact le_rfl
  | succ count ih => exact total_bind_nonneg ih (each count)

/-- A loop leaves a counter alone exactly if every iteration that is reached does. -/
theorem total_loop_eq_zero_iff {body : ℕ → σ → Routine Act Ret σ} {vars : σ}
    (each : ∀ index vars, 0 ≤ (body index vars).total weight) {count : ℕ} :
    (loop body vars count).total weight = 0 ↔
      ∀ index < count, ∀ reached, (loop body vars index).result = .ok reached →
        (body index reached).total weight = 0 := by
  induction count with
  | zero => exact iff_of_true rfl nofun
  | succ count ih =>
      rw [loop, total_bind_eq_zero_iff (total_loop_nonneg vars each count) (each count), ih]
      constructor
      · rintro ⟨earlier, last⟩ index index_lt
        rcases Nat.lt_succ_iff_lt_or_eq.mp index_lt with before | rfl
        · exact earlier index before
        · exact last
      · intro all
        exact ⟨fun index before => all index (Nat.lt_succ_of_lt before),
          all count (Nat.lt_succ_self count)⟩

end Totals

end Routine

end Acai
