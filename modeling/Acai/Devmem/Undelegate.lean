import Acai.Devmem.Delegate
import Acai.Lib.Tiling

/-!
# Undelegation of DRAM

This file models `devmem_undelegate.c`, the module that takes all of a realm's memory
back from the device when it is loaded. `undelegate` works its way from the start of
DRAM to its end in chunks of 2048 pages, and hands each chunk to the monitor as a
start and a number of pages.

The bytes that are left are counted in a signed word. `MIN` compares them with the
size of a chunk, which is unsigned, so that both are compared as unsigned words; the
test of the loop is signed. As long as DRAM has less than 2^63 bytes, the two agree,
and the ranges tile it (`undelegate_coversDram`).
-/

namespace Acai

/-- The arguments of `devmem_delegate_mem_range`. -/
structure MemRange where
  addr : UInt64
  numGranules : UInt64
  deriving DecidableEq

/-- `devmem_delegate_mem_range` of the undelegation. What the monitor answers is printed, and not
used by the caller. -/
def devmemDelegateMemRange (realm : Bool) (range : MemRange) : List MonitorCall :=
  if realm then
    [.rsiSetAddrRangeDevMem range.addr.toNat range.numGranules.toNat false]
  else []

/-- `PAGE_SIZE * 0x800` -/
def delegateChunk : UInt64 := UInt64.ofNat pageSize * 0x800

/-- `MIN(delegate_chunk, left)`, which is unsigned as a whole. -/
def minChunk (left : Int64) : UInt64 :=
  if delegateChunk < left.toUInt64 then delegateChunk else left.toUInt64

/-- The loop of `undelegate`, with the ranges that it passes on; `none` when it has not ended after
`fuel` tests. -/
def undelegateLoop : ℕ → UInt64 → Int64 → Option (List MemRange)
  | 0, _, _ => none
  | fuel + 1, start, left =>
      if 0 < left then
        let range := (minChunk left).toInt64
        let numPages := (range.toUInt64 / UInt64.ofNat pageSize).toInt64
        (undelegateLoop fuel (start + range.toUInt64) (left - range)).map
          (⟨start, numPages.toUInt64⟩ :: ·)
      else some []

/-- `undelegate`, given what `memblock_start_of_DRAM` and `memblock_end_of_DRAM` return. -/
def undelegate (realm : Bool) (fuel : ℕ) (start stop : UInt64) : Option (List MonitorCall) :=
  (undelegateLoop fuel start (stop - start).toInt64).map fun ranges =>
    ranges.flatMap (devmemDelegateMemRange realm)

/-! ## The ranges and the memory -/

def MemRange.part (range : MemRange) : Part :=
  ⟨range.addr.toNat, range.numGranules.toNat * pageSize⟩

/-- The ranges follow one another from the start of the memory to its end. -/
structure CoversDram (start stop : ℕ) (ranges : List MemRange) : Prop where
  consecutive : Part.Tiles (ranges.map MemRange.part) start stop
  disjoint : ranges.Pairwise fun first second => Disjoint first.part.span second.part.span
  covers : ∀ address,
    (∃ range ∈ ranges, address ∈ range.part.span) ↔ start ≤ address ∧ address < stop

theorem CoversDram.of_tiles {start stop : ℕ} {ranges : List MemRange}
    (tiles : Part.Tiles (ranges.map MemRange.part) start stop) : CoversDram start stop ranges where
  consecutive := tiles
  disjoint := by
    have disjoint := tiles.pairwise_disjoint
    rwa [List.pairwise_map] at disjoint
  covers := fun address => by
    rw [← Set.mem_Ico, ← tiles.mem_iff]
    simp

/-! ## The loop -/

section Loop

variable {start left : UInt64}

theorem toInt64_pos_iff (small : left.toNat < 2 ^ 63) : 0 < left.toInt64 ↔ 0 < left.toNat := by
  have signed : left.toInt64.toInt = left.toNat := by
    rw [← Int64.toInt_toBitVec, UInt64.toBitVec_toInt64, BitVec.toInt_eq_toNat_of_lt]
    · rfl
    · rw [UInt64.toNat_toBitVec]
      omega
  rw [Int64.lt_iff_toInt_lt, signed]
  simp

theorem toNat_minChunk (left : UInt64) :
    (minChunk left.toInt64).toNat = min (2048 * pageSize) left.toNat := by
  have chunk : delegateChunk.toNat = 2048 * pageSize := rfl
  rw [minChunk, UInt64.toUInt64_toInt64]
  split
  · rename_i more
    rw [UInt64.lt_iff_toNat_lt, chunk] at more
    rw [chunk, min_eq_left more.le]
  · rename_i last
    rw [UInt64.lt_iff_toNat_lt, chunk] at last
    rw [min_eq_right (not_lt.mp last)]

/-- The range that the body of the loop passes on. -/
def chunkRange (start left : UInt64) : MemRange :=
  ⟨start, minChunk left.toInt64 / UInt64.ofNat pageSize⟩

theorem undelegateLoop_succ (small : left.toNat < 2 ^ 63) (fuel : ℕ) (start : UInt64) :
    undelegateLoop (fuel + 1) start left.toInt64 =
      if 0 < left.toNat then
        (undelegateLoop fuel (start + minChunk left.toInt64)
          (left - minChunk left.toInt64).toInt64).map (chunkRange start left :: ·)
      else some [] := by
  simp only [undelegateLoop, toInt64_pos_iff small]
  rfl

theorem pageSize_dvd_chunk {left : ℕ} (aligned : pageSize ∣ left) :
    pageSize ∣ min (2048 * pageSize) left := by
  rcases min_choice (2048 * pageSize) left with chunk | all
  · rw [chunk]
    exact Dvd.intro_left _ rfl
  · rw [all]
    exact aligned

/-- A chunk of whole pages loses nothing when its bytes are counted as pages. -/
theorem part_chunkRange (aligned : pageSize ∣ left.toNat) :
    (chunkRange start left).part = ⟨start.toNat, min (2048 * pageSize) left.toNat⟩ := by
  have size : (UInt64.ofNat pageSize).toNat = pageSize := rfl
  rw [MemRange.part, chunkRange, UInt64.toNat_div, toNat_minChunk, size]
  rw [Nat.div_mul_cancel (pageSize_dvd_chunk aligned)]

/-- How many chunks `left` bytes make up. -/
def chunksCovered (left : ℕ) : ℕ := (left + 2048 * pageSize - 1) / (2048 * pageSize)

/-- By induction on the bytes that are left: the loop ends, and its ranges tile them. -/
theorem undelegateLoop_tiles (small : left.toNat < 2 ^ 63) (aligned : pageSize ∣ left.toNat)
    (inSpace : start.toNat + left.toNat < 2 ^ 64) :
    ∃ ranges, (∀ fuel, chunksCovered left.toNat < fuel →
        undelegateLoop fuel start left.toInt64 = some ranges) ∧
      Part.Tiles (ranges.map MemRange.part) start.toNat (start.toNat + left.toNat) := by
  obtain ⟨bytes, bytes_eq⟩ : ∃ bytes, bytes = left.toNat := ⟨_, rfl⟩
  induction bytes using Nat.strong_induction_on generalizing start left with
  | h bytes ih =>
      rcases Nat.eq_zero_or_pos left.toNat with none | some_left
      · refine ⟨[], fun fuel enough => ?_, by rw [none]; rfl⟩
        obtain ⟨fuel, rfl⟩ : ∃ before, fuel = before + 1 := ⟨_, (Nat.succ_pred (by omega)).symm⟩
        rw [undelegateLoop_succ small, if_neg (by omega)]
      · have range := toNat_minChunk left
        have le_left : minChunk left.toInt64 ≤ left := by
          rw [UInt64.le_iff_toNat_le, range]
          exact min_le_right _ _
        have rest := UInt64.toNat_sub_of_le _ _ le_left
        have next : (start + minChunk left.toInt64).toNat =
            start.toNat + min (2048 * pageSize) left.toNat := by
          rw [UInt64.toNat_add, range]
          omega
        rw [range] at rest
        have fewer : left.toNat - min (2048 * pageSize) left.toNat < left.toNat := by
          simp only [pageSize]
          omega
        rcases @ih _ (bytes_eq ▸ fewer) (start + minChunk left.toInt64)
          (left - minChunk left.toInt64) (by omega)
          (by rw [rest]; exact Nat.dvd_sub aligned (pageSize_dvd_chunk aligned)) (by omega)
          rest.symm with ⟨ranges, ends, tiles⟩
        refine ⟨chunkRange start left :: ranges, fun fuel enough => ?_, ?_⟩
        · obtain ⟨fuel, rfl⟩ : ∃ before, fuel = before + 1 :=
            ⟨_, (Nat.succ_pred (by omega)).symm⟩
          rw [undelegateLoop_succ small, if_pos some_left, ends]
          · rfl
          · rw [rest]
            simp only [chunksCovered, pageSize] at enough ⊢
            omega
        · rw [next, rest, Nat.add_assoc, Nat.add_sub_cancel' (min_le_right _ _)] at tiles
          rw [List.map_cons, part_chunkRange aligned]
          exact ⟨rfl, tiles⟩

end Loop

/-! ## The whole memory -/

/--
The loop ends, and what the monitor is asked to take back are ranges that follow one
another from the start of DRAM to its end.
-/
theorem undelegate_coversDram (start stop : UInt64) (alignedStart : pageSize ∣ start.toNat)
    (alignedStop : pageSize ∣ stop.toNat) (ordered : start ≤ stop)
    (small : stop.toNat - start.toNat < 2 ^ 63) :
    ∃ ranges, CoversDram start.toNat stop.toNat ranges ∧
      ∀ fuel, chunksCovered (stop.toNat - start.toNat) < fuel →
        undelegate true fuel start stop = some (ranges.map fun range =>
          .rsiSetAddrRangeDevMem range.addr.toNat range.numGranules.toNat false) := by
  have left := UInt64.toNat_sub_of_le _ _ ordered
  have le := UInt64.le_iff_toNat_le.mp ordered
  have stop_lt := stop.toNat_lt
  rcases @undelegateLoop_tiles start (stop - start) (by omega)
    (by rw [left]; exact Nat.dvd_sub alignedStop alignedStart) (by omega)
    with ⟨ranges, ends, tiles⟩
  rw [left, Nat.add_sub_cancel' le] at tiles
  rw [left] at ends
  refine ⟨ranges, .of_tiles tiles, fun fuel enough => ?_⟩
  rw [undelegate, ends fuel enough, Option.map_some]
  exact congrArg some List.map_eq_flatMap.symm

theorem undelegate_coversDram_lastPage :
    ∃ ranges, CoversDram 0x80000000 0x80801000 ranges ∧
      ∀ fuel, chunksCovered 0x801000 < fuel →
        undelegate true fuel 0x80000000 0x80801000 = some (ranges.map fun range =>
          .rsiSetAddrRangeDevMem range.addr.toNat range.numGranules.toNat false) :=
  undelegate_coversDram 0x80000000 0x80801000 (by decide) (by decide) (by decide) (by decide)

example : undelegate true 3 0x80000000 0x80801000 = some [
    .rsiSetAddrRangeDevMem 0x80000000 2048 false, .rsiSetAddrRangeDevMem 0x80800000 1 false] := by
  decide

end Acai
