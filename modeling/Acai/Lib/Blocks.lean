import Mathlib.Algebra.Order.BigOperators.Group.List
import Mathlib.Data.List.Basic
import Mathlib.Order.Lattice
import Mathlib.Tactic.Ring

/-!
# Cutting an interval at block boundaries

The numbers are divided into blocks of one size. An interval that is cut at the
boundaries between the blocks falls into parts, one for each block that it
overlaps. This file gives the parts in closed form, and a loop that cuts off one part
after another by the recursion that they satisfy.
-/

namespace Acai

/-- The place and the length of a part of an interval. -/
structure Part where
  start : ℕ
  length : ℕ
  deriving DecidableEq

namespace Blocks

variable (size start stop : ℕ)

/-- The first number of the block `index` blocks after the one of `start`. -/
def boundary (index : ℕ) : ℕ := size * (start / size + index)

def part (index : ℕ) : Part where
  start := max start (boundary size start index)
  length := min stop (boundary size start (index + 1)) - max start (boundary size start index)

/-- The number of blocks that overlap the interval from `start` to `stop`. -/
def count : ℕ := (stop - 1) / size + 1 - start / size

def parts : List Part := (List.range (count size start stop)).map (part size start stop)

theorem boundary_succ (index : ℕ) :
    boundary size start (index + 1) = boundary size start index + size := by
  simp only [boundary]
  ring

theorem boundary_zero_le : boundary size start 0 ≤ start := by
  simp only [boundary, Nat.add_zero]
  exact Nat.mul_div_le start size

variable {size} in
theorem lt_boundary_succ (size_pos : 0 < size) (index : ℕ) :
    start < boundary size start (index + 1) := by
  have first : start < boundary size start 1 := Nat.lt_mul_div_succ start size_pos
  have later : boundary size start 1 ≤ boundary size start (index + 1) :=
    Nat.mul_le_mul_left size (by omega)
  omega

variable {size start stop} (size_pos : 0 < size) (nonempty : start < stop)

include size_pos nonempty

omit size_pos in
theorem count_pos : 0 < count size start stop := by
  have below : start / size ≤ (stop - 1) / size := Nat.div_le_div_right (by omega)
  simp only [count]
  omega

theorem boundary_lt_iff {index : ℕ} :
    boundary size start index < stop ↔ index < count size start stop := by
  have below : start / size ≤ (stop - 1) / size := Nat.div_le_div_right (by omega)
  have reaches : boundary size start index ≤ stop - 1 ↔
      start / size + index ≤ (stop - 1) / size := by
    rw [boundary, Nat.mul_comm]
    exact (Nat.le_div_iff_mul_le size_pos).symm
  simp only [count]
  omega

/-- The blocks that overlap the interval are `count` blocks in a row. -/
theorem overlaps_iff {block : ℕ} :
    (∃ number, start ≤ number ∧ number < stop ∧ number / size = block) ↔
      ∃ index < count size start stop, block = start / size + index := by
  constructor
  · rintro ⟨number, after, before, rfl⟩
    have first : start / size ≤ number / size := Nat.div_le_div_right after
    have last : number / size ≤ (stop - 1) / size := Nat.div_le_div_right (by omega)
    refine ⟨number / size - start / size, ?_, by omega⟩
    simp only [count]
    omega
  · rintro ⟨index, inside, rfl⟩
    have reached := (boundary_lt_iff size_pos nonempty).mpr inside
    refine ⟨max start (boundary size start index), le_max_left .., by omega, ?_⟩
    cases index with
    | zero =>
        rw [max_eq_left (boundary_zero_le size start)]
        rfl
    | succ index =>
        rw [max_eq_right (lt_boundary_succ start size_pos index).le, boundary]
        exact Nat.mul_div_cancel_left _ size_pos

theorem part_length_pos {index : ℕ} (inside : index < count size start stop) :
    0 < (part size start stop index).length := by
  have reached := (boundary_lt_iff size_pos nonempty).mpr inside
  have after := lt_boundary_succ start size_pos index
  have step := boundary_succ size start index
  simp only [part]
  omega

theorem part_stop {index : ℕ} (inside : index < count size start stop) :
    (part size start stop index).start + (part size start stop index).length =
      min stop (boundary size start (index + 1)) := by
  have reached := (boundary_lt_iff size_pos nonempty).mpr inside
  have after := lt_boundary_succ start size_pos index
  have step := boundary_succ size start index
  simp only [part]
  omega

/-- Every part starts where the parts before it end. -/
theorem part_start {index : ℕ} (inside : index < count size start stop) :
    (part size start stop index).start =
      start +
        ((List.range index).map fun earlier => (part size start stop earlier).length).sum := by
  induction index with
  | zero =>
      have first := boundary_zero_le size start
      simp only [part, List.range_zero, List.map_nil, List.sum_nil]
      omega
  | succ index ih =>
      have reached := (boundary_lt_iff size_pos nonempty).mpr inside
      have after := lt_boundary_succ start size_pos index
      have stopped := part_stop size_pos nonempty (show index < _ by omega)
      have earlier := ih (by omega)
      have here : (part size start stop (index + 1)).start = boundary size start (index + 1) :=
        max_eq_right after.le
      rw [List.range_succ, List.map_append, List.sum_append, List.map_singleton,
        List.sum_singleton]
      omega

theorem sum_length_parts : ((parts size start stop).map Part.length).sum = stop - start := by
  obtain ⟨last, last_eq⟩ : ∃ last, count size start stop = last + 1 :=
    ⟨_, (Nat.succ_pred_eq_of_pos (count_pos nonempty)).symm⟩
  have inside : last < count size start stop := by omega
  have behind : ¬boundary size start (last + 1) < stop := by
    rw [boundary_lt_iff size_pos nonempty]
    omega
  have placed := part_start size_pos nonempty inside
  have stopped := part_stop size_pos nonempty inside
  rw [parts, last_eq, List.map_map, List.range_succ, List.map_append, List.sum_append,
    List.map_singleton, List.sum_singleton]
  simp only [Function.comp_def] at placed stopped ⊢
  omega

theorem count_of_lt (more : boundary size start 1 < stop) :
    count size start stop = count size (boundary size start 1) stop + 1 := by
  have inside := (boundary_lt_iff size_pos nonempty).mp more
  have block : boundary size start 1 / size = start / size + 1 := by
    rw [boundary]
    exact Nat.mul_div_cancel_left _ size_pos
  simp only [count, block] at inside ⊢
  omega

theorem count_of_le (last : stop ≤ boundary size start 1) : count size start stop = 1 := by
  have pos : 0 < count size start stop := count_pos nonempty
  have notMore : ¬1 < count size start stop := by
    rw [← boundary_lt_iff size_pos nonempty]
    omega
  omega

/-- The interval ends in the block in which it starts. -/
theorem parts_of_le (last : stop ≤ boundary size start 1) :
    parts size start stop = [⟨start, stop - start⟩] := by
  have first := boundary_zero_le size start
  rw [parts, count_of_le size_pos nonempty last]
  simp only [List.range_one, List.map_singleton, part, List.cons.injEq, and_true, Part.mk.injEq,
    Nat.zero_add]
  omega

theorem parts_of_lt (more : boundary size start 1 < stop) :
    parts size start stop = ⟨start, boundary size start 1 - start⟩ ::
      parts size (boundary size start 1) stop := by
  have block : boundary size start 1 / size = start / size + 1 := by
    rw [boundary]
    exact Nat.mul_div_cancel_left _ size_pos
  have shifted : ∀ index, boundary size (boundary size start 1) index =
      boundary size start (index + 1) := by
    intro index
    rw [boundary, block, boundary, Nat.add_assoc, Nat.add_comm 1]
  have counted := count_of_lt size_pos nonempty more
  have first := boundary_zero_le size start
  rw [parts, counted, List.range_succ_eq_map, List.map_cons, List.map_map, parts]
  congr 1
  · simp only [part, Part.mk.injEq, Nat.zero_add]
    omega
  · apply List.map_congr_left
    intro index _
    have after := lt_boundary_succ start size_pos index
    have step : boundary size start 1 ≤ boundary size start (index + 1) :=
      Nat.mul_le_mul_left size (by omega)
    simp only [Function.comp_apply, Nat.succ_eq_add_one, part, shifted, Part.mk.injEq]
    omega

end Blocks

end Acai
