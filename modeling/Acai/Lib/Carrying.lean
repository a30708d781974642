import Mathlib.Data.List.Nodup
import Mathlib.Logic.Function.Basic

/-!
# Bytes that are carried from one memory to another

What carries bytes from a source to a destination is a list of pairs of places, which
are worked off one after another. The two memories are different ones, so that no step
changes what a later one reads. If no place of the destination occurs twice, each of
them has got the value of its source afterwards, whichever steps have been left out.
-/

namespace Acai

section Carrying

variable {Source Dest Value : Type*} [DecidableEq Dest]

/-- The destination after the pairs have been worked off. -/
def carry (source : Source → Value) (pairs : List (Source × Dest)) (dest : Dest → Value) :
    Dest → Value :=
  pairs.foldl (fun dest pair => Function.update dest pair.2 (source pair.1)) dest

variable {source : Source → Value} {pairs : List (Source × Dest)} {dest : Dest → Value}

theorem carry_cons (pair : Source × Dest) :
    carry source (pair :: pairs) dest =
      carry source pairs (Function.update dest pair.2 (source pair.1)) := rfl

theorem carry_outside {place : Dest} (outside : place ∉ pairs.map Prod.snd) :
    carry source pairs dest place = dest place := by
  induction pairs generalizing dest with
  | nil => rfl
  | cons pair pairs ih =>
      rw [List.map_cons, List.mem_cons, not_or] at outside
      rw [carry_cons, ih outside.2, Function.update_of_ne outside.1]

theorem carry_of_mem {pair : Source × Dest} (nodup : (pairs.map Prod.snd).Nodup)
    (pair_mem : pair ∈ pairs) : carry source pairs dest pair.2 = source pair.1 := by
  induction pairs generalizing dest with
  | nil => cases pair_mem
  | cons first pairs ih =>
      rw [List.map_cons, List.nodup_cons] at nodup
      rw [carry_cons]
      rcases List.mem_cons.mp pair_mem with rfl | later
      · rw [carry_outside nodup.1, Function.update_self]
      · exact ih nodup.2 later

/-- Of pairs with different destinations, any part may be worked off. -/
theorem carry_of_sublist {part : List (Source × Dest)} {pair : Source × Dest}
    (nodup : (pairs.map Prod.snd).Nodup) (sublist : part.Sublist pairs) (pair_mem : pair ∈ part) :
    carry source part dest pair.2 = source pair.1 :=
  carry_of_mem (nodup.sublist (sublist.map Prod.snd)) pair_mem

theorem carry_outside_of_sublist {part : List (Source × Dest)} {place : Dest}
    (sublist : part.Sublist pairs) (outside : place ∉ pairs.map Prod.snd) :
    carry source part dest place = dest place :=
  carry_outside (mt (sublist.map Prod.snd).mem outside)

/-- The first `done` of `count` values have arrived, and nothing has changed but their places. -/
structure Arrived (source : Source → Value) (dest after : Dest → Value) (start : ℕ → Source)
    (goal : ℕ → Dest) (count done : ℕ) : Prop where
  values : ∀ index < done, after (goal index) = source (start index)
  others : ∀ place, (∀ index < count, place ≠ goal index) → after place = dest place

/-- The first values are carried, and any part of the others. -/
theorem arrived_carry {start : ℕ → Source} {goal : ℕ → Dest} {count done : ℕ}
    {part : List (Source × Dest)}
    (distinct : ∀ first < count, ∀ second < count, goal first = goal second → first = second)
    (done_le : done ≤ count)
    (later : part.Sublist (((List.range count).map fun index =>
      (start index, goal index)).drop done)) :
    Arrived source dest (carry source (((List.range count).map fun index =>
      (start index, goal index)).take done ++ part) dest) start goal count done := by
  have goals : ((List.range count).map fun index => (start index, goal index)).map Prod.snd =
      (List.range count).map goal := by
    rw [List.map_map]
    rfl
  have nodup : (((List.range count).map fun index => (start index, goal index)).map
      Prod.snd).Nodup := by
    rw [goals]
    refine List.Nodup.map_on (fun first first_mem second second_mem same => ?_) List.nodup_range
    exact distinct first (List.mem_range.mp first_mem) second (List.mem_range.mp second_mem) same
  have sublist := (List.Sublist.refl (((List.range count).map fun index =>
    (start index, goal index)).take done)).append later
  rw [List.take_append_drop] at sublist
  constructor
  case values =>
    intro index lt
    have index_mem : (start index, goal index) ∈
        ((List.range count).map fun index => (start index, goal index)).take done := by
      rw [← List.map_take, List.take_range, Nat.min_eq_left done_le]
      exact List.mem_map.mpr ⟨index, List.mem_range.mpr lt, rfl⟩
    exact carry_of_sublist nodup sublist (List.mem_append_left _ index_mem)
  case others =>
    intro place outside
    refine carry_outside_of_sublist sublist ?_
    rw [goals, List.mem_map]
    rintro ⟨index, index_mem, same⟩
    exact outside index (List.mem_range.mp index_mem) same.symm

end Carrying

end Acai
