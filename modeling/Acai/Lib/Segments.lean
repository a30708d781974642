import Mathlib.Data.List.Infix

/-!
# Segments and their merging

A segment is a number of places that follow one another from a start on. Which
place comes a number of steps after another is a parameter, so that the places may
be numbers, or the words of an address space that wraps around.

Merging goes through a list of segments once: a segment that starts right behind
the one before extends it, and any other segment ends it. It keeps the places, in
their order and as often as they occur, and what it joins lies one right behind the
other.
-/

namespace Acai

structure Segment (Place : Type*) where
  start : Place
  count : ℕ
  deriving DecidableEq

namespace Segment

variable {Place : Type*} (after : Place → ℕ → Place)

def places (segment : Segment Place) : List Place :=
  (List.range segment.count).map (after segment.start)

/-- The place right behind a segment. -/
def behind (segment : Segment Place) : Place := after segment.start segment.count

def join (first second : Segment Place) : Segment Place :=
  ⟨first.start, first.count + second.count⟩

/-- What segments that lie one right behind the other make up. -/
inductive Joins : List (Segment Place) → Segment Place → Prop where
  | single (segment : Segment Place) : Joins [segment] segment
  | extend {run : List (Segment Place)} {joined next : Segment Place} (joins : Joins run joined)
      (adjacent : next.start = joined.behind after) : Joins (run ++ [next]) (joined.join next)

variable {after} in
theorem places_join (after_after : ∀ place first second,
      after (after place first) second = after place (first + second))
    {first second : Segment Place} (adjacent : second.start = first.behind after) :
    (first.join second).places after = first.places after ++ second.places after := by
  simp only [places, join, List.range_add, List.map_append, List.map_map, adjacent, behind]
  congr 2
  funext index
  exact (after_after _ _ _).symm

section Merging

variable [DecidableEq Place]

def mergeFrom (current : Segment Place) : List (Segment Place) → List (Segment Place)
  | [] => [current]
  | next :: rest =>
      if next.start = current.behind after then mergeFrom (current.join next) rest
      else current :: mergeFrom next rest

def merge : List (Segment Place) → List (Segment Place)
  | [] => []
  | first :: rest => mergeFrom after first rest

variable {after}

theorem places_mergeFrom (after_after : ∀ place first second,
      after (after place first) second = after place (first + second))
    (current : Segment Place) (rest : List (Segment Place)) :
    (mergeFrom after current rest).flatMap (places after) =
      current.places after ++ rest.flatMap (places after) := by
  induction rest generalizing current with
  | nil => simp [mergeFrom]
  | cons next rest ih =>
      rw [mergeFrom]
      split
      · rename_i adjacent
        rw [ih, places_join after_after adjacent, List.flatMap_cons, List.append_assoc]
      · rw [List.flatMap_cons, ih, List.flatMap_cons]

/-- Merging keeps the places, their order and how often each of them occurs. -/
theorem places_merge (after_after : ∀ place first second,
      after (after place first) second = after place (first + second))
    (segments : List (Segment Place)) :
    (merge after segments).flatMap (places after) = segments.flatMap (places after) := by
  cases segments with
  | nil => rfl
  | cons first rest => rw [merge, places_mergeFrom after_after, List.flatMap_cons]

theorem joins_of_mem_mergeFrom {run rest : List (Segment Place)}
    {current merged : Segment Place} (joins : Joins after run current)
    (merged_mem : merged ∈ mergeFrom after current rest) :
    ∃ run', run' <:+: run ++ rest ∧ Joins after run' merged := by
  induction rest generalizing run current with
  | nil =>
      obtain rfl : merged = current := by simpa [mergeFrom] using merged_mem
      exact ⟨run, ⟨[], [], by simp⟩, joins⟩
  | cons next rest ih =>
      rw [mergeFrom] at merged_mem
      split at merged_mem
      · rename_i adjacent
        simpa using ih (joins.extend adjacent) merged_mem
      · rcases List.mem_cons.mp merged_mem with rfl | later
        · exact ⟨run, (List.prefix_append run _).isInfix, joins⟩
        · rcases ih (Joins.single next) later with ⟨run', inRest, joins'⟩
          exact ⟨run', inRest.trans (List.suffix_append run _).isInfix, joins'⟩

/-- Every merged segment is made up of neighbours in the list. -/
theorem joins_of_mem_merge {segments : List (Segment Place)} {merged : Segment Place}
    (merged_mem : merged ∈ merge after segments) :
    ∃ run, run <:+: segments ∧ Joins after run merged := by
  cases segments with
  | nil => cases merged_mem
  | cons first rest => exact joins_of_mem_mergeFrom (Joins.single first) merged_mem

end Merging

end Segment

end Acai
