import Acai.Kernel.Scatterlist

/-!
# Delegation of scatterlists to the device

This file models the part of `devmem_intercept.c` that makes memory accessible to
the device: the probe on `dma_map_sg_attrs` walks the scatterlist that is about to
be mapped, merges neighbouring entries into ranges of granules, and passes each
range on to the monitor.

The walk has two gaps. It never looks at the number of entries that are mapped,
so it goes on to the end of the list, and it counts the granules of an entry from
the start of its first page, although the entry starts at an offset in it.
`FollowsMapping` says for which scatterlists the delegated memory is still the
mapped memory. The granules of an entry are counted
in 32 bits, and the loop does not end when the length comes within a page of
2^32.
-/

namespace Acai

structure DevmemParams where
  realm : Bool
  noDelegate : Bool
  kprobe : Bool
  testengine : Bool

inductive MonitorCall where
  | rsiSetAddrRangeDevMem (addr numGranules : ℕ) (doDelegate : Bool)
  | rsiTriggerTestengine (iova addr sid : ℕ)
  | mapPagesFromSid (sid iova addr numGranules : ℕ)
  deriving DecidableEq

structure RangeCall where
  addr : ℕ
  numGranules : ℕ
  doDelegate : Bool
  deriving DecidableEq

/-- `devmem_delegate_mem_range_device`; its result is not used by any caller. -/
def devmemDelegateMemRangeDevice (params : DevmemParams) (call : RangeCall) : List MonitorCall :=
  if params.noDelegate then []
  else if params.realm then
    .rsiSetAddrRangeDevMem call.addr call.numGranules call.doDelegate ::
      if params.testengine then
        (List.range call.numGranules).flatMap fun index =>
          let address := granuleAt call.addr index
          [.rsiTriggerTestengine address address 31, .rsiTriggerTestengine address address 31]
      else []
  else if call.doDelegate then
    [.mapPagesFromSid 31 call.addr call.addr call.numGranules]
  else []

/-- The loop that counts the granules of an entry, with its 32-bit counter; `none` when it has
not ended after `fuel` tests. -/
def countGranules (length : ℕ) : ℕ → ℕ → ℕ → Option ℕ
  | 0, _, _ => none
  | fuel + 1, j, nents =>
      if j < length then countGranules length fuel (u32 (j + pageSize)) (nents + 1)
      else some nents

/-- The counter takes 2^20 values, so a loop that outlives this many tests never ends. -/
def granuleFuel : ℕ := 2 ^ 20 + 1

def addGranules (entry : SgEntry) (nents : ℕ) : Option ℕ :=
  countGranules entry.length.toNat granuleFuel 0 nents

/--
The nested loops of `devmem_delegate_mem_range_sgl` after an entry has been added
to the current range: an entry right behind the range extends it, and any other
entry ends the range and starts the next one.
-/
def delegateRanges (doDelegate : Bool) (base nents : ℕ) :
    List SgEntry → Option (List RangeCall)
  | [] => some [⟨base, nents, doDelegate⟩]
  | sg :: rest =>
      if sg.page.toPhys = granuleAt base nents then do
        let nents' ← addGranules sg nents
        delegateRanges doDelegate base nents' rest
      else do
        let nents' ← addGranules sg 0
        let ranges ← delegateRanges doDelegate sg.page.toPhys nents' rest
        some (⟨base, nents, doDelegate⟩ :: ranges)

/-- `devmem_delegate_mem_range_sgl`: the calls it makes, or `none` when it does not return. The
number of entries is not used, as in the source. -/
def devmemDelegateMemRangeSgl (sgl : List SgEntry) (_nentsTot : ℤ) (doDelegate : Bool) :
    Option (List RangeCall) :=
  match sgl with
  | [] => some []
  | sg :: rest => do
      let nents ← addGranules sg 0
      delegateRanges doDelegate sg.page.toPhys nents rest

def preDmaMapSgAttrs (params : DevmemParams) (sgl : List SgEntry) (nents : ℤ) :
    Option (List MonitorCall) :=
  (devmemDelegateMemRangeSgl sgl nents true).map fun calls =>
    calls.flatMap (devmemDelegateMemRangeDevice params)

/-! ## Counting the granules of an entry -/

def maxLength : ℕ := 2 ^ 32 - pageSize

theorem countGranules_of_le {length fuel j nents : ℕ} (short : length ≤ maxLength)
    (enough : pagesCovered (length - j) < fuel) :
    countGranules length fuel j nents = some (nents + pagesCovered (length - j)) := by
  induction fuel generalizing j nents with
  | zero => omega
  | succ fuel ih =>
      simp only [countGranules]
      split
      · rename_i inside
        have next : u32 (j + pageSize) = j + pageSize := by
          simp only [maxLength, pageSize, u32] at short ⊢
          omega
        have step : pagesCovered (length - j) = pagesCovered (length - (j + pageSize)) + 1 := by
          simp only [pagesCovered, pageSize]
          omega
        rw [next, ih (by omega), step, Nat.add_assoc, Nat.add_comm 1]
      · have none : pagesCovered (length - j) = 0 := by
          simp only [pagesCovered, pageSize]
          omega
        rw [none, Nat.add_zero]

/-- Beyond the greatest length the counter wraps around before it reaches the length. -/
theorem countGranules_of_gt {length fuel j nents : ℕ} (long : maxLength < length)
    (aligned : pageSize ∣ j) (inRange : j < 2 ^ 32) :
    countGranules length fuel j nents = none := by
  induction fuel generalizing j nents with
  | zero => rfl
  | succ fuel ih =>
      have inside : j < length := by
        simp only [maxLength, pageSize] at long aligned ⊢
        omega
      simp only [countGranules, inside, ↓reduceIte]
      apply ih
      · simp only [u32, pageSize] at aligned ⊢
        omega
      · exact Nat.mod_lt _ (by decide)

theorem addGranules_of_le {entry : SgEntry} (short : entry.length.toNat ≤ maxLength) (nents : ℕ) :
    addGranules entry nents = some (nents + pagesCovered entry.length.toNat) := by
  apply countGranules_of_le short
  simp only [pagesCovered, pageSize, granuleFuel, maxLength] at short ⊢
  omega

theorem addGranules_of_gt {entry : SgEntry} {nents : ℕ} (long : maxLength < entry.length.toNat) :
    addGranules entry nents = none :=
  countGranules_of_gt long (dvd_zero _) (by decide)

/-! ## The delegated memory -/

def granules (calls : List RangeCall) : Set ℕ :=
  { granule | ∃ call ∈ calls, ∃ index < call.numGranules, granule = granuleAt call.addr index }

/-- The granules that the walk counts for the entries of a scatterlist. -/
def walked (sgl : List SgEntry) : Set ℕ :=
  { granule | ∃ sg ∈ sgl, ∃ index < pagesCovered sg.length.toNat,
      granule = granuleAt sg.page.toPhys index }

/-- The pages that the bytes of the entries of a scatterlist lie in. -/
def overlapped (sgl : List SgEntry) : Set ℕ :=
  { granule | ∃ sg ∈ sgl, ∃ index < sg.length.toNat,
      granule = pageOf (u64 (sg.page.toPhys + sg.offset.toNat + index)) }

theorem mem_walked_cons {sg : SgEntry} {sgl : List SgEntry} {granule : ℕ} :
    granule ∈ walked (sg :: sgl) ↔
      (∃ index < pagesCovered sg.length.toNat, granule = granuleAt sg.page.toPhys index) ∨
        granule ∈ walked sgl := by
  simp [walked]

theorem mem_granules_cons {call : RangeCall} {calls : List RangeCall} {granule : ℕ} :
    granule ∈ granules (call :: calls) ↔
      (∃ index < call.numGranules, granule = granuleAt call.addr index) ∨
        granule ∈ granules calls := by
  simp [granules]

theorem exists_granule_extend {base nents added granule : ℕ} :
    (∃ index < nents + added, granule = granuleAt base index) ↔
      (∃ index < nents, granule = granuleAt base index) ∨
        ∃ index < added, granule = granuleAt (granuleAt base nents) index := by
  constructor
  · rintro ⟨index, index_lt, rfl⟩
    rcases lt_or_ge index nents with before | after
    · exact Or.inl ⟨index, before, rfl⟩
    · refine Or.inr ⟨index - nents, by omega, ?_⟩
      rw [granuleAt_granuleAt, Nat.add_sub_cancel' after]
  · rintro (⟨index, index_lt, rfl⟩ | ⟨index, index_lt, rfl⟩)
    · exact ⟨index, by omega, rfl⟩
    · exact ⟨nents + index, by omega, granuleAt_granuleAt base nents index⟩

/-- The ranges cover the current range and every entry that is left, each counted from the start
of its first page. -/
theorem delegateRanges_granules (doDelegate : Bool) {sgl : List SgEntry}
    (short : ∀ sg ∈ sgl, sg.length.toNat ≤ maxLength) (base nents : ℕ) :
    ∃ calls, delegateRanges doDelegate base nents sgl = some calls ∧
      (∀ call ∈ calls, call.doDelegate = doDelegate) ∧
      ∀ granule, granule ∈ granules calls ↔
        (∃ index < nents, granule = granuleAt base index) ∨ granule ∈ walked sgl := by
  induction sgl generalizing base nents with
  | nil => exact ⟨_, rfl, by simp, by simp [granules, walked]⟩
  | cons sg rest ih =>
      have counted := addGranules_of_le (short sg List.mem_cons_self)
      have short' : ∀ other ∈ rest, other.length.toNat ≤ maxLength := fun other other_mem =>
        short other (List.mem_cons_of_mem _ other_mem)
      by_cases contiguous : sg.page.toPhys = granuleAt base nents
      · rcases ih short' base (nents + pagesCovered sg.length.toNat)
          with ⟨calls, ranges, directions, covers⟩
        refine ⟨calls, ?_, directions, ?_⟩
        · simp [delegateRanges, contiguous, counted, ranges]
        · intro granule
          rw [covers, exists_granule_extend, mem_walked_cons, contiguous, or_assoc]
      · rcases ih short' sg.page.toPhys (pagesCovered sg.length.toNat)
          with ⟨calls, ranges, directions, covers⟩
        refine ⟨⟨base, nents, doDelegate⟩ :: calls, ?_, ?_, ?_⟩
        · simp [delegateRanges, contiguous, counted, ranges]
        · simpa using directions
        · intro granule
          rw [mem_granules_cons, covers, mem_walked_cons]

theorem delegateRanges_eq_none {doDelegate : Bool} {sgl : List SgEntry} {sg : SgEntry}
    (sg_mem : sg ∈ sgl) (long : maxLength < sg.length.toNat) (base nents : ℕ) :
    delegateRanges doDelegate base nents sgl = none := by
  induction sgl generalizing base nents with
  | nil => cases sg_mem
  | cons first rest ih =>
      rcases List.mem_cons.mp sg_mem with rfl | later
      · simp [delegateRanges, addGranules_of_gt long]
      · simp only [delegateRanges, ih later]
        split <;> cases addGranules first _ <;> rfl

theorem devmemDelegateMemRangeSgl_eq_none {sgl : List SgEntry} {sg : SgEntry} (sg_mem : sg ∈ sgl)
    (long : maxLength < sg.length.toNat) (nentsTot : ℤ) (doDelegate : Bool) :
    devmemDelegateMemRangeSgl sgl nentsTot doDelegate = none := by
  cases sgl with
  | nil => cases sg_mem
  | cons first rest =>
      rcases List.mem_cons.mp sg_mem with rfl | later
      · simp [devmemDelegateMemRangeSgl, addGranules_of_gt long]
      · simp only [devmemDelegateMemRangeSgl, delegateRanges_eq_none later long]
        cases addGranules first 0 <;> rfl

theorem devmemDelegateMemRangeSgl_granules {sgl : List SgEntry}
    (short : ∀ sg ∈ sgl, sg.length.toNat ≤ maxLength) (nentsTot : ℤ) (doDelegate : Bool) :
    ∃ calls, devmemDelegateMemRangeSgl sgl nentsTot doDelegate = some calls ∧
      (∀ call ∈ calls, call.doDelegate = doDelegate) ∧ granules calls = walked sgl := by
  cases sgl with
  | nil => exact ⟨[], rfl, by simp, by simp [granules, walked]⟩
  | cons sg rest =>
      have counted := addGranules_of_le (short sg List.mem_cons_self) 0
      rcases delegateRanges_granules doDelegate
        (fun other other_mem => short other (List.mem_cons_of_mem sg other_mem)) sg.page.toPhys
        (pagesCovered sg.length.toNat) with ⟨calls, ranges, directions, covers⟩
      refine ⟨calls, ?_, directions, ?_⟩
      · simp [devmemDelegateMemRangeSgl, counted, ranges]
      · ext granule
        rw [covers, mem_walked_cons]

/-! ## Delegated and mapped memory -/

theorem mem_overlapped_iff {sgl : List SgEntry} {granule : ℕ} :
    granule ∈ overlapped sgl ↔
      ∃ sg ∈ sgl, 0 < sg.length.toNat ∧
        ∃ index, sg.offset.toNat / pageSize ≤ index ∧
          index < pagesCovered (sg.offset.toNat + sg.length.toNat) ∧
          granule = granuleAt sg.page.toPhys index := by
  constructor
  · rintro ⟨sg, sg_mem, index, index_lt, rfl⟩
    refine ⟨sg, sg_mem, by omega, (sg.offset.toNat + index) / pageSize, ?_, ?_, ?_⟩
    · exact Nat.div_le_div_right (by omega)
    · rw [lt_pagesCovered_iff]
      simp only [pageSize]
      omega
    · rw [Nat.add_assoc, pageOf_add]
  · rintro ⟨sg, sg_mem, pos, index, after, before, rfl⟩
    rw [lt_pagesCovered_iff] at before
    -- the first byte of the entry in the page, or the first byte of the page
    refine ⟨sg, sg_mem, index * pageSize - sg.offset.toNat, by omega, ?_⟩
    rw [Nat.add_assoc, pageOf_add]
    congr 1
    simp only [pageSize] at after ⊢
    omega

/--
The scatterlists whose delegation follows the mapping. The walk must end; what it
counts beyond the mapped entries, and before the page in which a mapped entry
starts, must lie in mapped pages anyway; and the pages that a mapped entry needs
beyond its length, because it starts at an offset, must be counted for some other
entry.
-/
structure FollowsMapping (sgl : List SgEntry) (nentsTot : ℕ) : Prop where
  ends : ∀ sg ∈ sgl, sg.length.toNat ≤ maxLength
  later : ∀ sg ∈ sgl.drop nentsTot, ∀ index < pagesCovered sg.length.toNat,
    granuleAt sg.page.toPhys index ∈ overlapped (sgl.take nentsTot)
  start : ∀ sg ∈ sgl.take nentsTot, ∀ index < pagesCovered sg.length.toNat,
    index < sg.offset.toNat / pageSize →
      granuleAt sg.page.toPhys index ∈ overlapped (sgl.take nentsTot)
  tail : ∀ sg ∈ sgl.take nentsTot, 0 < sg.length.toNat →
    ∀ index < pagesCovered (sg.offset.toNat + sg.length.toNat),
      pagesCovered sg.length.toNat ≤ index → sg.offset.toNat / pageSize ≤ index →
        granuleAt sg.page.toPhys index ∈ walked sgl

theorem walked_eq_overlapped_iff {sgl : List SgEntry} {nentsTot : ℕ}
    (ends : ∀ sg ∈ sgl, sg.length.toNat ≤ maxLength) :
    walked sgl = overlapped (sgl.take nentsTot) ↔ FollowsMapping sgl nentsTot := by
  constructor
  · intro same
    refine ⟨ends, ?_, ?_, ?_⟩
    · intro sg sg_mem index index_lt
      rw [← same]
      exact ⟨sg, List.mem_of_mem_drop sg_mem, index, index_lt, rfl⟩
    · intro sg sg_mem index index_lt _
      rw [← same]
      exact ⟨sg, List.mem_of_mem_take sg_mem, index, index_lt, rfl⟩
    · intro sg sg_mem pos index before _ after
      rw [same, mem_overlapped_iff]
      exact ⟨sg, sg_mem, pos, index, after, before, rfl⟩
  · rintro ⟨-, later, start, tail⟩
    ext granule
    constructor
    · rintro ⟨sg, sg_mem, index, index_lt, rfl⟩
      rw [← List.take_append_drop nentsTot sgl, List.mem_append] at sg_mem
      rcases sg_mem with mapped | unmapped
      · rcases lt_or_ge index (sg.offset.toNat / pageSize) with before | after
        · exact start sg mapped index index_lt before
        · rw [lt_pagesCovered_iff] at index_lt
          refine mem_overlapped_iff.mpr ⟨sg, mapped, by omega, index, after, ?_, rfl⟩
          rw [lt_pagesCovered_iff]
          omega
      · exact later sg unmapped index index_lt
    · intro inMapping
      rcases mem_overlapped_iff.mp inMapping with ⟨sg, sg_mem, pos, index, after, before, rfl⟩
      rcases lt_or_ge index (pagesCovered sg.length.toNat) with counted | beyond
      · exact ⟨sg, List.mem_of_mem_take sg_mem, index, counted, rfl⟩
      · exact tail sg sg_mem pos index before beyond after

/--
`devmem_delegate_mem_range_sgl` passes on exactly the pages of the byte ranges of
the first `nentsTot` entries if and only if `FollowsMapping` holds.
-/
theorem devmemDelegateMemRangeSgl_follows_iff (sgl : List SgEntry) (nentsTot : ℕ)
    (doDelegate : Bool) :
    (∃ calls, devmemDelegateMemRangeSgl sgl nentsTot doDelegate = some calls ∧
        granules calls = overlapped (sgl.take nentsTot)) ↔
      FollowsMapping sgl nentsTot := by
  by_cases ends : ∀ sg ∈ sgl, sg.length.toNat ≤ maxLength
  · rcases devmemDelegateMemRangeSgl_granules ends nentsTot doDelegate
      with ⟨calls, returns, -, covers⟩
    rw [← walked_eq_overlapped_iff ends, ← covers]
    constructor
    · rintro ⟨calls', returns', follows⟩
      rw [returns] at returns'
      cases returns'
      exact follows
    · exact fun follows => ⟨calls, returns, follows⟩
  · constructor
    · rintro ⟨calls, returns, -⟩
      push Not at ends
      rcases ends with ⟨sg, sg_mem, long⟩
      rw [devmemDelegateMemRangeSgl_eq_none sg_mem long] at returns
      cases returns
    · exact fun follows => absurd follows.ends ends

/-- Delegation follows a mapping of the whole list when every entry starts at a page. -/
theorem followsMapping_of_aligned {sgl : List SgEntry}
    (ends : ∀ sg ∈ sgl, sg.length.toNat ≤ maxLength)
    (aligned : ∀ sg ∈ sgl, sg.offset = 0) : FollowsMapping sgl sgl.length where
  ends := ends
  later := by simp
  start := by
    intro sg sg_mem index _ before
    rw [aligned sg (List.mem_of_mem_take sg_mem)] at before
    simp at before
  tail := by
    intro sg sg_mem _ index before beyond
    rw [aligned sg (List.mem_of_mem_take sg_mem)] at before
    simp only [UInt32.toNat_zero, Nat.zero_add] at before
    omega

def twoPages : List SgEntry := [sgSetPage (Page.ofPfn 1) 4096 0, sgSetPage (Page.ofPfn 5) 4096 0]

/-- The page of an entry behind the mapped one is delegated as well. -/
theorem devmemDelegateMemRangeSgl_ignores_nents :
    ¬∀ (sgl : List SgEntry) (nentsTot : ℕ), nentsTot ≤ sgl.length →
      ∃ calls, devmemDelegateMemRangeSgl sgl nentsTot true = some calls ∧
        granules calls = overlapped (sgl.take nentsTot) := by
  intro claim
  rcases claim twoPages 1 (by decide) with ⟨calls, returns, follows⟩
  rcases @devmemDelegateMemRangeSgl_granules twoPages (by decide) (1 : ℕ) true
    with ⟨calls', returns', -, covers⟩
  rw [returns'] at returns
  cases returns
  have delegated : granuleAt (Page.ofPfn 5).toPhys 0 ∈ walked twoPages :=
    ⟨sgSetPage (Page.ofPfn 5) 4096 0, by simp [twoPages], 0, by decide, rfl⟩
  rw [← covers, follows, mem_overlapped_iff] at delegated
  rcases delegated with ⟨sg, sg_mem, -, index, -, index_lt, same⟩
  obtain rfl : sg = sgSetPage (Page.ofPfn 1) 4096 0 := by simpa [twoPages] using sg_mem
  have one : pagesCovered ((sgSetPage (Page.ofPfn 1) 4096 0).offset.toNat +
      (sgSetPage (Page.ofPfn 1) 4096 0).length.toNat) = 1 := by decide
  obtain rfl : index = 0 := by omega
  exact absurd same (by decide)

end Acai
