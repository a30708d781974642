import Acai.Devmem.Delegate
import Acai.Lib.Segments

/-!
# Merged ranges and single granules

The walk over a scatterlist replaces one call for each granule by one call for each
run of neighbouring entries. This file compares the two: an entry is a segment of
granules, the loops of `devmem_delegate_mem_range_sgl` merge these segments, and so
the ranges make up the same granules, in the same order and as often as the entries
do. A range is made of entries that lie one right behind the other, so that it
never takes in memory between two entries.
-/

namespace Acai

/-- The granules of an entry, one for each page of its length. -/
def SgEntry.granules (sg : SgEntry) : List ℕ :=
  (List.range (pagesCovered sg.length.toNat)).map fun index => sg.page.toPhys + pageSize * index

def SgEntry.segment (sg : SgEntry) : Segment ℕ := ⟨sg.page.toPhys, pagesCovered sg.length.toNat⟩

def RangeCall.segment (call : RangeCall) : Segment ℕ := ⟨call.addr, call.numGranules⟩

/-- The granules of a range, at the addresses that 64-bit arithmetic gives them. -/
def RangeCall.granules (call : RangeCall) : List ℕ :=
  (List.range call.numGranules).map (granuleAt call.addr)

def Segment.toCall (doDelegate : Bool) (segment : Segment ℕ) : RangeCall :=
  ⟨segment.start, segment.count, doDelegate⟩

theorem delegateRanges_eq_mergeFrom (doDelegate : Bool) {sgl : List SgEntry}
    (short : ∀ sg ∈ sgl, sg.length.toNat ≤ maxLength) (base nents : ℕ) :
    delegateRanges doDelegate base nents sgl =
      some ((Segment.mergeFrom granuleAt ⟨base, nents⟩ (sgl.map SgEntry.segment)).map
        (Segment.toCall doDelegate)) := by
  induction sgl generalizing base nents with
  | nil => rfl
  | cons sg rest ih =>
      have counted := addGranules_of_le (short sg List.mem_cons_self)
      have shortRest : ∀ other ∈ rest, other.length.toNat ≤ maxLength := fun other other_mem =>
        short other (List.mem_cons_of_mem _ other_mem)
      simp only [delegateRanges, List.map_cons, Segment.mergeFrom]
      by_cases contiguous : sg.page.toPhys = granuleAt base nents
      · have behind : sg.segment.start = Segment.behind granuleAt ⟨base, nents⟩ := contiguous
        rw [if_pos contiguous, if_pos behind, counted]
        exact ih shortRest base _
      · have notBehind : sg.segment.start ≠ Segment.behind granuleAt ⟨base, nents⟩ := contiguous
        rw [if_neg contiguous, if_neg notBehind, counted, Nat.zero_add]
        simp only [Option.bind_eq_bind, Option.bind_some, ih shortRest]
        rfl

/-- The nested loops merge the segments of the entries. -/
theorem devmemDelegateMemRangeSgl_eq_merge {sgl : List SgEntry}
    (short : ∀ sg ∈ sgl, sg.length.toNat ≤ maxLength) (nentsTot : ℤ) (doDelegate : Bool) :
    devmemDelegateMemRangeSgl sgl nentsTot doDelegate =
      some ((Segment.merge granuleAt (sgl.map SgEntry.segment)).map
        (Segment.toCall doDelegate)) := by
  cases sgl with
  | nil => rfl
  | cons sg rest =>
      rw [devmemDelegateMemRangeSgl, addGranules_of_le (short sg List.mem_cons_self), Nat.zero_add]
      exact delegateRanges_eq_mergeFrom doDelegate
        (fun other other_mem => short other (List.mem_cons_of_mem _ other_mem)) _ _

theorem SgEntry.granules_eq_places {sg : SgEntry}
    (inSpace : sg.page.toPhys + pageSize * pagesCovered sg.length.toNat ≤ 2 ^ 64) :
    sg.granules = sg.segment.places granuleAt := by
  apply List.map_congr_left
  intro index index_mem
  have index_lt := List.mem_range.mp index_mem
  simp only [SgEntry.segment, granuleAt, u64, pageSize] at inSpace ⊢
  rw [Nat.mod_eq_of_lt (by omega), Nat.mul_comm]

/--
The walk over a scatterlist returns, and the ranges that it passes on are made of
the granules of the entries, entry by entry. The entries of a range lie one right
behind the other.
-/
theorem devmemDelegateMemRangeSgl_flattens {sgl : List SgEntry}
    (short : ∀ sg ∈ sgl, sg.length.toNat ≤ maxLength)
    (inSpace : ∀ sg ∈ sgl, sg.page.toPhys + pageSize * pagesCovered sg.length.toNat ≤ 2 ^ 64)
    (nentsTot : ℤ) (doDelegate : Bool) :
    ∃ calls, devmemDelegateMemRangeSgl sgl nentsTot doDelegate = some calls ∧
      (∀ call ∈ calls, call.doDelegate = doDelegate) ∧
      calls.flatMap RangeCall.granules = sgl.flatMap SgEntry.granules ∧
      ∀ call ∈ calls, ∃ run, run <:+: sgl ∧
        Segment.Joins granuleAt (run.map SgEntry.segment) call.segment := by
  refine ⟨_, devmemDelegateMemRangeSgl_eq_merge short nentsTot doDelegate, ?_, ?_, ?_⟩
  · intro call call_mem
    rcases List.mem_map.mp call_mem with ⟨segment, -, rfl⟩
    rfl
  · have asSegments : sgl.flatMap SgEntry.granules =
        (sgl.map SgEntry.segment).flatMap (Segment.places granuleAt) := by
      rw [List.flatMap_map]
      exact List.flatMap_congr fun sg sg_mem => sg.granules_eq_places (inSpace sg sg_mem)
    rw [List.flatMap_map, asSegments, ← Segment.places_merge granuleAt_granuleAt]
    rfl
  · intro call call_mem
    rcases List.mem_map.mp call_mem with ⟨segment, segment_mem, rfl⟩
    rcases Segment.joins_of_mem_merge segment_mem with ⟨segments, inList, joins⟩
    rcases List.infix_map_iff.mp inList with ⟨run, inSgl, rfl⟩
    exact ⟨run, inSgl, joins⟩

def neighbours : List SgEntry :=
  [sgSetPage (Page.ofPfn 4) 8192 0, sgSetPage (Page.ofPfn 6) 100 0, sgSetPage (Page.ofPfn 2) 0 0]

theorem devmemDelegateMemRangeSgl_flattens_neighbours :
    ∃ calls, devmemDelegateMemRangeSgl neighbours 3 true = some calls ∧
      calls.flatMap RangeCall.granules = [0x4000, 0x5000, 0x6000] := by
  rcases @devmemDelegateMemRangeSgl_flattens neighbours (by decide) (by decide) 3 true
    with ⟨calls, returns, -, flattens, -⟩
  exact ⟨calls, returns, flattens.trans (by decide)⟩

end Acai
