import Acai.Lib.Blocks
import Mathlib.Order.CompletePartialOrder
import Mathlib.Order.Interval.Set.Disjoint

/-!
# Parts that tile an interval

Parts tile an interval if each of them starts where the one before it ends. They
cover the interval, and no two of them overlap. This holds of the blocks that are
taken off one end of a buffer, and of the chunks in which a loop works its way through
a range.
-/

namespace Acai

namespace Part

def stop (part : Part) : ℕ := part.start + part.length

def span (part : Part) : Set ℕ := Set.Ico part.start part.stop

def Tiles : List Part → ℕ → ℕ → Prop
  | [], start, stop => start = stop
  | part :: rest, start, stop => part.start = start ∧ Tiles rest part.stop stop

variable {parts : List Part} {part : Part} {start stop : ℕ}

theorem start_le_stop (part : Part) : part.start ≤ part.stop := Nat.le_add_right _ _

/-- A part may be empty, and it is then inside wherever it is. -/
theorem stop_le_of_subset (inside : part.span ⊆ Set.Ico start stop) (le : part.start ≤ stop) :
    part.stop ≤ stop := by
  rcases part.start_le_stop.eq_or_lt with empty | nonempty
  · rwa [← empty]
  · exact ((Set.Ico_subset_Ico_iff nonempty).mp inside).2

theorem Tiles.le (tiles : Tiles parts start stop) : start ≤ stop := by
  induction parts generalizing start with
  | nil => exact tiles.le
  | cons part parts ih =>
      rcases tiles with ⟨rfl, rest⟩
      exact part.start_le_stop.trans (ih rest)

/-- A part is added at the end. -/
theorem Tiles.concat (tiles : Tiles parts start part.start) :
    Tiles (parts ++ [part]) start part.stop := by
  induction parts generalizing start with
  | nil => exact ⟨tiles.symm, rfl⟩
  | cons first parts ih => exact ⟨tiles.1, ih tiles.2⟩

theorem Tiles.inside (tiles : Tiles parts start stop) (part_mem : part ∈ parts) :
    start ≤ part.start ∧ part.stop ≤ stop := by
  induction parts generalizing start with
  | nil => cases part_mem
  | cons first parts ih =>
      rcases tiles with ⟨rfl, rest⟩
      rcases List.mem_cons.mp part_mem with rfl | later
      · exact ⟨le_rfl, rest.le⟩
      · rcases ih rest later with ⟨after, before⟩
        exact ⟨first.start_le_stop.trans after, before⟩

theorem disjoint_of_le {first second : Part} (le : first.stop ≤ second.start) :
    Disjoint first.span second.span :=
  Set.Ico_disjoint_Ico.mpr ((min_le_left _ _).trans (le.trans (le_max_right _ _)))

/-- What begins behind the tiled interval overlaps with no part. -/
theorem Tiles.disjoint_behind (tiles : Tiles parts start stop) (part_mem : part ∈ parts)
    {next : Part} (behind : stop ≤ next.start) : Disjoint part.span next.span :=
  disjoint_of_le ((tiles.inside part_mem).2.trans behind)

theorem Tiles.pairwise_disjoint (tiles : Tiles parts start stop) :
    parts.Pairwise fun first second => Disjoint first.span second.span := by
  induction parts generalizing start with
  | nil => exact List.Pairwise.nil
  | cons part parts ih =>
      refine List.Pairwise.cons (fun next next_mem => ?_) (ih tiles.2)
      exact disjoint_of_le (tiles.2.inside next_mem).1

/-- The parts make up the interval. -/
theorem Tiles.mem_iff (tiles : Tiles parts start stop) {number : ℕ} :
    (∃ part ∈ parts, number ∈ part.span) ↔ number ∈ Set.Ico start stop := by
  induction parts generalizing start with
  | nil =>
      obtain rfl : start = stop := tiles
      simp
  | cons part parts ih =>
      rcases tiles with ⟨rfl, rest⟩
      have le := rest.le
      have first := part.start_le_stop
      rw [List.exists_mem_cons_iff, ih rest]
      simp only [span, Set.mem_Ico]
      omega

end Part

end Acai
