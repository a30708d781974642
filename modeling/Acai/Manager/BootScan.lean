import Mathlib.Data.List.Induction
import Mathlib.Order.Bounds.Basic
import Acai.Manager.AddrMap

/-!
# What the boot scan finds

The boot scan reads the first words of every page of the target twice. The first
pass finds the least and the greatest tag and so the size of the address map, the
second pass enters the address of every tagged page at its tag. This file says what
the two passes leave: the dimensions are the extreme tags, and a lookup below the
greatest tag gives the highest page that carries the number.

The map is sized for the numbers below the greatest tag, while the accesses accept
the greatest tag too. Its index is the number of entries, so that the one access
that every boot scan makes at the greatest tag goes past the array.
-/

namespace Acai

/-! ## The pages of the target -/

/-- The loop over the page addresses, with its 64-bit counter; `none` when it has not ended after
`fuel` tests. -/
def scanLoop (stop : ℕ) : ℕ → ℕ → Option (List ℕ)
  | 0, _ => none
  | fuel + 1, addr =>
      if addr < stop then (scanLoop stop fuel (u64 (addr + pageSize))).map (addr :: ·) else some []

def pageAddresses (first count : ℕ) : List ℕ :=
  (List.range count).map fun index => first + pageSize * index

theorem pageAddresses_succ (first count : ℕ) :
    pageAddresses first (count + 1) = first :: pageAddresses (first + pageSize) count := by
  simp only [pageAddresses, List.range_succ_eq_map, List.map_cons, List.map_map, Nat.mul_zero,
    Nat.add_zero, List.cons.injEq, true_and]
  apply List.map_congr_left
  intro index _
  simp only [Function.comp_apply, Nat.succ_eq_add_one, Nat.mul_add, Nat.mul_one]
  omega

theorem scanLoop_eq {stop fuel addr : ℕ} (room : stop + pageSize ≤ 2 ^ 64)
    (enough : (stop - addr + pageSize - 1) / pageSize < fuel) :
    scanLoop stop fuel addr =
      some (pageAddresses addr ((stop - addr + pageSize - 1) / pageSize)) := by
  induction fuel generalizing addr with
  | zero => exact absurd enough (Nat.not_lt_zero _)
  | succ fuel ih =>
      rw [scanLoop]
      split
      · rename_i inside
        have next : u64 (addr + pageSize) = addr + pageSize := by
          simp only [u64, pageSize] at room ⊢
          omega
        have step : (stop - addr + pageSize - 1) / pageSize =
            (stop - (addr + pageSize) + pageSize - 1) / pageSize + 1 := by
          simp only [pageSize]
          omega
        rw [next, ih (by omega), step, pageAddresses_succ]
        rfl
      · have none : (stop - addr + pageSize - 1) / pageSize = 0 := by
          simp only [pageSize]
          omega
        rw [none]
        rfl

/-- The loops of the scan end, and `scanned` lists the addresses that they go through. -/
theorem scanLoop_scanned {ctx : CtxStruct} (room : ctx.targetTo.toNat + pageSize ≤ 2 ^ 64) :
    ∃ tests, ∀ fuel, tests ≤ fuel →
      scanLoop ctx.targetTo.toNat fuel ctx.targetFrom.toNat = some ctx.scanned :=
  ⟨_, fun _ enough => scanLoop_eq room (Nat.lt_of_succ_le enough)⟩

theorem mem_scanned {ctx : CtxStruct} {addr : ℕ} :
    addr ∈ ctx.scanned ↔
      (∃ index, addr = ctx.targetFrom.toNat + pageSize * index) ∧ addr < ctx.targetTo.toNat := by
  constructor
  · intro addr_mem
    rcases List.mem_map.mp addr_mem with ⟨index, index_mem, rfl⟩
    have index_lt := List.mem_range.mp index_mem
    refine ⟨⟨index, rfl⟩, ?_⟩
    simp only [pageSize] at index_lt ⊢
    omega
  · rintro ⟨⟨index, rfl⟩, inside⟩
    apply List.mem_map.mpr
    refine ⟨index, List.mem_range.mpr ?_, rfl⟩
    simp only [pageSize] at inside ⊢
    omega

theorem scanned_ascending (ctx : CtxStruct) : ctx.scanned.Pairwise (· < ·) := by
  apply List.Pairwise.map _ _ List.pairwise_lt_range
  intro first second before
  simp only [pageSize]
  omega

theorem lt_of_mem_scanned {ctx : CtxStruct} {addr : ℕ} (addr_mem : addr ∈ ctx.scanned) :
    addr < 2 ^ 64 :=
  (mem_scanned.mp addr_mem).2.trans ctx.targetTo.toNat_lt

theorem toNat_ofNat_of_mem_scanned {ctx : CtxStruct} {addr : ℕ} (addr_mem : addr ∈ ctx.scanned) :
    (UInt64.ofNat addr).toNat = addr :=
  UInt64.toNat_ofNat_of_lt' (lt_of_mem_scanned addr_mem)

/-- A readable page with the magic number and the tag `pfn`. -/
def Target.Carries (target : Target) (addr pfn : ℕ) : Prop :=
  ∃ tag, target.tagAt addr = some tag ∧ tag.toNat = pfn

/-- The pages of the target's range that carry the tag `pfn`. -/
def taggedPages (ctx : CtxStruct) (target : Target) (pfn : ℕ) : Set ℕ :=
  { addr | (∃ index, addr = ctx.targetFrom.toNat + pageSize * index) ∧
      addr < ctx.targetTo.toNat ∧ target.Carries addr pfn }

theorem mem_taggedPages {ctx : CtxStruct} {target : Target} {addr pfn : ℕ} :
    addr ∈ taggedPages ctx target pfn ↔ addr ∈ ctx.scanned ∧ target.Carries addr pfn := by
  rw [mem_scanned, and_assoc]
  rfl

/-! ## The first pass -/

section

variable {target : Target}

/-- What the first pass knows of the tags that it has seen, from the dimensions it started with. -/
structure Extremes (tags : List UInt64) (start dims : UInt64 × UInt64) : Prop where
  min_le_start : dims.1 ≤ start.1
  start_le_max : start.2 ≤ dims.2
  min_le : ∀ tag ∈ tags, dims.1 ≤ tag
  le_max : ∀ tag ∈ tags, tag ≤ dims.2
  min_mem : dims.1 = start.1 ∨ dims.1 ∈ tags
  max_mem : dims.2 = start.2 ∨ dims.2 ∈ tags

/-- The dimensions after one more tag. -/
def extend (dims : UInt64 × UInt64) (tag : UInt64) : UInt64 × UInt64 :=
  (if dims.1 < tag then dims.1 else tag, if dims.2 > tag then dims.2 else tag)

theorem extremes_extend (dims : UInt64 × UInt64) (tag : UInt64) :
    Extremes [tag] dims (extend dims tag) := by
  simp only [extend]
  constructor
  case min_mem | max_mem =>
    dsimp only
    split
    · exact Or.inl rfl
    · exact Or.inr (List.mem_singleton_self tag)
  all_goals
    simp only [List.mem_singleton, forall_eq, gt_iff_lt, UInt64.le_iff_toNat_le,
      UInt64.lt_iff_toNat_lt]
    split <;> omega

theorem Extremes.cons {tag : UInt64} {tags : List UInt64} {start dims : UInt64 × UInt64}
    (rest : Extremes tags (extend start tag) dims) : Extremes (tag :: tags) start dims := by
  have first := extremes_extend start tag
  have here_min := first.min_le tag (by simp)
  have here_max := first.le_max tag (by simp)
  constructor
  · exact UInt64.le_trans rest.min_le_start first.min_le_start
  · exact UInt64.le_trans first.start_le_max rest.start_le_max
  · intro other other_mem
    rcases List.mem_cons.mp other_mem with rfl | later
    · exact UInt64.le_trans rest.min_le_start here_min
    · exact rest.min_le other later
  · intro other other_mem
    rcases List.mem_cons.mp other_mem with rfl | later
    · exact UInt64.le_trans here_max rest.start_le_max
    · exact rest.le_max other later
  · rcases rest.min_mem with same | later
    · rw [same]
      rcases first.min_mem with start_eq | new
      · exact Or.inl start_eq
      · exact Or.inr (List.mem_cons.mpr (Or.inl (List.mem_singleton.mp new)))
    · exact Or.inr (List.mem_cons_of_mem _ later)
  · rcases rest.max_mem with same | later
    · rw [same]
      rcases first.max_mem with start_eq | new
      · exact Or.inl start_eq
      · exact Or.inr (List.mem_cons.mpr (Or.inl (List.mem_singleton.mp new)))
    · exact Or.inr (List.mem_cons_of_mem _ later)

theorem extremes_foldl (target : Target) (addrs : List ℕ) (start : UInt64 × UInt64) :
    Extremes (addrs.filterMap target.tagAt) start
      (addrs.foldl (findDimensionsStep target) start) := by
  induction addrs generalizing start with
  | nil => exact ⟨UInt64.le_refl _, UInt64.le_refl _, by simp, by simp, Or.inl rfl, Or.inl rfl⟩
  | cons addr addrs ih =>
      have rest := ih (findDimensionsStep target start addr)
      rw [List.foldl_cons]
      cases tag_eq : target.tagAt addr with
      | none =>
          simp only [findDimensionsStep, tag_eq, List.filterMap_cons] at rest ⊢
          exact rest
      | some tag =>
          simp only [findDimensionsStep, tag_eq, List.filterMap_cons] at rest ⊢
          exact rest.cons

def CtxStruct.tags (ctx : CtxStruct) (target : Target) : List UInt64 :=
  ctx.scanned.filterMap target.tagAt

theorem mem_tags {ctx : CtxStruct} {tag : UInt64} :
    tag ∈ ctx.tags target ↔ (taggedPages ctx target tag.toNat).Nonempty := by
  simp only [CtxStruct.tags, List.mem_filterMap]
  constructor
  · rintro ⟨addr, addr_mem, tag_eq⟩
    exact ⟨addr, mem_taggedPages.mpr ⟨addr_mem, tag, tag_eq, rfl⟩⟩
  · rintro ⟨addr, tagged⟩
    rcases mem_taggedPages.mp tagged with ⟨addr_mem, other, tag_eq, same⟩
    rw [UInt64.toNat.inj same] at tag_eq
    exact ⟨addr, addr_mem, tag_eq⟩

theorem exists_mem_tags {ctx : CtxStruct} {pfn : ℕ}
    (tagged : (taggedPages ctx target pfn).Nonempty) :
    ∃ tag ∈ ctx.tags target, tag.toNat = pfn := by
  rcases tagged with ⟨addr, addr_mem⟩
  rcases mem_taggedPages.mp addr_mem with ⟨inRange, tag, tag_eq, rfl⟩
  exact ⟨tag, List.mem_filterMap.mpr ⟨addr, inRange, tag_eq⟩, rfl⟩

theorem tags_ne_nil {ctx : CtxStruct} (tagged : ∃ pfn, (taggedPages ctx target pfn).Nonempty) :
    ctx.tags target ≠ [] := by
  rcases tagged with ⟨pfn, page⟩
  rcases exists_mem_tags page with ⟨tag, tag_mem, -⟩
  exact List.ne_nil_of_mem tag_mem

theorem extremes_fvpmemFindDimensions (ctx : CtxStruct) :
    Extremes (ctx.tags target) (0x7FFFFFFFFFFFFFFF, 0) (fvpmemFindDimensions ctx target) :=
  extremes_foldl target ctx.scanned _

theorem fvpmemFindDimensions_of_noTags {ctx : CtxStruct} (noTags : ctx.tags target = []) :
    fvpmemFindDimensions ctx target = (0x7FFFFFFFFFFFFFFF, 0) := by
  have extremes := @extremes_fvpmemFindDimensions target ctx
  rw [noTags] at extremes
  apply Prod.ext
  · simpa using extremes.min_mem
  · simpa using extremes.max_mem

theorem fvpmemFindDimensions_max_mem {ctx : CtxStruct} (some_tag : ctx.tags target ≠ []) :
    (fvpmemFindDimensions ctx target).2 ∈ ctx.tags target := by
  have extremes := @extremes_fvpmemFindDimensions target ctx
  rcases extremes.max_mem with zero | mem
  · rcases List.exists_mem_of_ne_nil _ some_tag with ⟨tag, tag_mem⟩
    -- a tag is at most 0, so it is 0 itself
    have le_zero := extremes.le_max tag tag_mem
    rw [zero] at le_zero ⊢
    rw [UInt64.le_zero_iff] at le_zero
    rwa [le_zero] at tag_mem
  · exact mem

theorem fvpmemFindDimensions_min_le_max {ctx : CtxStruct} (some_tag : ctx.tags target ≠ []) :
    (fvpmemFindDimensions ctx target).1 ≤ (fvpmemFindDimensions ctx target).2 := by
  have extremes := @extremes_fvpmemFindDimensions target ctx
  rcases List.exists_mem_of_ne_nil _ some_tag with ⟨tag, tag_mem⟩
  exact UInt64.le_trans (extremes.min_le tag tag_mem) (extremes.le_max tag tag_mem)

/-- The first pass starts with a minimum that is no page frame number. -/
theorem fvpmemFindDimensions_min_mem {ctx : CtxStruct} (some_tag : ctx.tags target ≠ [])
    (small : ∀ tag ∈ ctx.tags target, tag.toNat < 2 ^ 52) :
    (fvpmemFindDimensions ctx target).1 ∈ ctx.tags target := by
  have extremes := @extremes_fvpmemFindDimensions target ctx
  rcases extremes.min_mem with start | mem
  · rcases List.exists_mem_of_ne_nil _ some_tag with ⟨tag, tag_mem⟩
    have le := extremes.min_le tag tag_mem
    have tag_lt := small tag tag_mem
    have int64Max : (0x7FFFFFFFFFFFFFFF : UInt64).toNat = 2 ^ 63 - 1 := rfl
    rw [start, UInt64.le_iff_toNat_le, int64Max] at le
    omega
  · exact mem

/-! ## The second pass -/

theorem scanAddressesStep_dims (ctx : CtxStruct) (addr : ℕ) :
    scanAddressesStep target ctx addr =
      { ctx with addrMap := (scanAddressesStep target ctx addr).addrMap } := by
  unfold scanAddressesStep
  split
  · rfl
  · unfold setAddrMapVaddr
    split <;> rfl

theorem foldl_scanAddressesStep_dims (ctx : CtxStruct) (addrs : List ℕ) :
    addrs.foldl (scanAddressesStep target) ctx =
      { ctx with addrMap := (addrs.foldl (scanAddressesStep target) ctx).addrMap } := by
  induction addrs generalizing ctx with
  | nil => rfl
  | cons addr addrs ih =>
      rw [List.foldl_cons, ih, scanAddressesStep_dims]

theorem getAddrMapVaddrVerify_scanAddressesStep_of_carries {ctx : CtxStruct} {addr pfn : ℕ}
    (inRange : ctx.addrMapPfnMin.toNat ≤ pfn ∧ pfn ≤ ctx.addrMapPfnMax.toNat)
    (carries : target.Carries addr pfn) :
    getAddrMapVaddrVerify (scanAddressesStep target ctx addr) pfn = UInt64.ofNat addr := by
  rcases carries with ⟨tag, tag_eq, rfl⟩
  simp only [scanAddressesStep, tag_eq]
  rw [getAddrMapVaddrVerify_setAddrMapVaddr, if_pos ⟨rfl, inRange⟩]

theorem getAddrMapVaddrVerify_scanAddressesStep_of_not_carries {ctx : CtxStruct} {addr pfn : ℕ}
    (other : ¬target.Carries addr pfn) :
    getAddrMapVaddrVerify (scanAddressesStep target ctx addr) pfn =
      getAddrMapVaddrVerify ctx pfn := by
  cases tag_eq : target.tagAt addr with
  | none => simp only [scanAddressesStep, tag_eq]
  | some tag =>
      have differs : pfn ≠ tag.toNat := fun same => other ⟨tag, tag_eq, same.symm⟩
      simp only [scanAddressesStep, tag_eq]
      rw [getAddrMapVaddrVerify_setAddrMapVaddr, if_neg (fun both => differs both.1)]

/-- A lookup after the second pass: the last page with the tag has overwritten the ones before
it, and as the addresses ascend, it is the highest. -/
theorem getAddrMapVaddrVerify_foldl {addrs : List ℕ} (ascending : addrs.Pairwise (· < ·))
    {ctx : CtxStruct} {pfn : ℕ}
    (inRange : ctx.addrMapPfnMin.toNat ≤ pfn ∧ pfn ≤ ctx.addrMapPfnMax.toNat) :
    (∃ addr, IsGreatest { addr | addr ∈ addrs ∧ target.Carries addr pfn } addr ∧
        getAddrMapVaddrVerify (addrs.foldl (scanAddressesStep target) ctx) pfn =
          UInt64.ofNat addr) ∨
      (∀ addr ∈ addrs, ¬target.Carries addr pfn) ∧
        getAddrMapVaddrVerify (addrs.foldl (scanAddressesStep target) ctx) pfn =
          getAddrMapVaddrVerify ctx pfn := by
  induction addrs using List.reverseRecOn with
  | nil => exact Or.inr ⟨by simp, rfl⟩
  | append_singleton addrs last ih =>
      rw [List.pairwise_append] at ascending
      rcases ascending with ⟨ascending, -, below⟩
      have before : ∀ addr ∈ addrs, addr < last := fun addr addr_mem =>
        below addr addr_mem last (List.mem_singleton_self last)
      rw [List.foldl_append, List.foldl_cons, List.foldl_nil]
      by_cases carries : target.Carries last pfn
      · left
        refine ⟨last, ⟨⟨by simp, carries⟩, ?_⟩, ?_⟩
        · rintro addr ⟨addr_mem, -⟩
          rcases List.mem_append.mp addr_mem with earlier | here
          · exact (before addr earlier).le
          · exact (List.mem_singleton.mp here).le
        · apply getAddrMapVaddrVerify_scanAddressesStep_of_carries _ carries
          rw [foldl_scanAddressesStep_dims]
          exact inRange
      · rw [getAddrMapVaddrVerify_scanAddressesStep_of_not_carries carries]
        have same : ∀ addr, addr ∈ addrs ++ [last] ∧ target.Carries addr pfn ↔
            addr ∈ addrs ∧ target.Carries addr pfn := by
          intro addr
          constructor
          · rintro ⟨addr_mem, tagged⟩
            rcases List.mem_append.mp addr_mem with earlier | here
            · exact ⟨earlier, tagged⟩
            · rw [List.mem_singleton.mp here] at tagged
              exact absurd tagged carries
          · rintro ⟨earlier, tagged⟩
            exact ⟨List.mem_append_left _ earlier, tagged⟩
        rcases ih ascending with ⟨addr, greatest, lookup⟩ | ⟨none, lookup⟩
        · left
          refine ⟨addr, ?_, lookup⟩
          simp only [same]
          exact greatest
        · right
          refine ⟨?_, lookup⟩
          intro addr addr_mem tagged
          exact none addr ((same addr).mp ⟨addr_mem, tagged⟩).1 tagged

/-! ## Both passes -/

theorem toNat_mapSize {minPfn maxPfn : UInt64} (ordered : minPfn ≤ maxPfn) :
    (8 * (maxPfn - minPfn)).toNat = 8 * ((maxPfn.toNat - minPfn.toNat) % 2 ^ 61) := by
  have eight : (8 : UInt64).toNat = 8 := rfl
  rw [UInt64.toNat_mul, UInt64.toNat_sub_of_le _ _ ordered, eight]
  omega

/-- The fresh map has no address for the numbers that it is sized for. -/
theorem getAddrMapVaddrVerify_initAddrMap {mmap : Option (ℕ → UInt64)} {ctx filled : CtxStruct}
    {minPfn maxPfn : UInt64} (ordered : minPfn ≤ maxPfn)
    (narrow : maxPfn.toNat - minPfn.toNat < 2 ^ 61)
    (initialised : initAddrMap mmap ctx minPfn maxPfn = (0, filled)) {pfn : ℕ}
    (inRange : minPfn.toNat ≤ pfn ∧ pfn < maxPfn.toNat) :
    getAddrMapVaddrVerify filled pfn = 0 := by
  rcases initAddrMap_ok initialised with ⟨behind, -, -, rfl⟩
  have sized := toNat_mapSize ordered
  have inMap : pfn - minPfn.toNat < mappedWords (8 * (maxPfn - minPfn)) := by
    rw [mappedWords, sized, Nat.mod_eq_of_lt narrow]
    simp only [pageSize]
    omega
  rw [getAddrMapVaddrVerify, if_pos ⟨inRange.1, inRange.2.le⟩]
  exact if_pos inMap

/-- The context that a successful boot scan leaves, up to the entries of its map. -/
theorem bootScan_dims {mmap : Option (ℕ → UInt64)} {start ctx : CtxStruct}
    (success : bootScan mmap start target = (0, ctx)) :
    ctx.addrMapPfnMin = (fvpmemFindDimensions start target).1 ∧
      ctx.addrMapPfnMax = (fvpmemFindDimensions start target).2 := by
  rcases bootScan_ok success with ⟨filled, initialised, rfl⟩
  rcases initAddrMap_ok initialised with ⟨behind, -, -, rfl⟩
  rw [fvpmemScanAddresses, foldl_scanAddressesStep_dims]
  exact ⟨rfl, rfl⟩

theorem getAddrMapVaddr_bootScan {mmap : Option (ℕ → UInt64)} {start ctx : CtxStruct}
    (success : bootScan mmap start target = (0, ctx))
    (ordered : (fvpmemFindDimensions start target).1 ≤ (fvpmemFindDimensions start target).2)
    (small : (fvpmemFindDimensions start target).2.toNat < 2 ^ 52) {pfn : ℕ}
    (above : ctx.addrMapPfnMin.toNat ≤ pfn) (below : pfn < ctx.addrMapPfnMax.toNat) :
    IsGreatest (taggedPages start target pfn) (getAddrMapVaddr ctx pfn).toNat ∨
      taggedPages start target pfn = ∅ ∧ getAddrMapVaddr ctx pfn = 0 := by
  rcases bootScan_dims success with ⟨min_eq, max_eq⟩
  rw [min_eq] at above
  rw [max_eq] at below
  rcases bootScan_ok success with ⟨filled, initialised, rfl⟩
  have fresh := getAddrMapVaddrVerify_initAddrMap ordered (by omega) initialised ⟨above, below⟩
  rcases initAddrMap_ok initialised with ⟨behind, -, -, filled_eq⟩
  have scanned : filled.scanned = start.scanned := by
    rw [filled_eq]
    rfl
  have inRange : filled.addrMapPfnMin.toNat ≤ pfn ∧ pfn ≤ filled.addrMapPfnMax.toNat := by
    rw [filled_eq]
    exact ⟨above, below.le⟩
  have pages : { addr | addr ∈ filled.scanned ∧ target.Carries addr pfn } =
      taggedPages start target pfn := by
    ext addr
    rw [mem_taggedPages, scanned]
    rfl
  rcases @getAddrMapVaddrVerify_foldl target _ (scanned_ascending filled) filled pfn inRange with
    ⟨addr, greatest, lookup⟩ | ⟨none, lookup⟩
  · left
    rw [getAddrMapVaddr, fvpmemScanAddresses, lookup, toNat_ofNat_of_mem_scanned greatest.1.1,
      ← pages]
    exact greatest
  · right
    constructor
    · rw [← pages]
      ext addr
      simp only [Set.mem_ofPred_eq, Set.mem_empty_iff_false, iff_false, not_and]
      exact none addr
    · exact lookup.trans fresh

/--
After a boot scan of a target with at least one tagged page, the dimensions of the
map are the least and the greatest tag. Below the greatest tag a lookup gives the
highest page with the number, or 0 when there is none, so that no two numbers have
the same page.
-/
theorem bootScan_correct {mmap : Option (ℕ → UInt64)} {start ctx : CtxStruct}
    (tagged : ∃ pfn, (taggedPages start target pfn).Nonempty)
    (frames : ∀ pfn, (taggedPages start target pfn).Nonempty → pfn < 2 ^ 52)
    (success : bootScan mmap start target = (0, ctx)) :
    (start.targetTo.toNat + pageSize ≤ 2 ^ 64 → ∃ tests, ∀ fuel, tests ≤ fuel →
      scanLoop start.targetTo.toNat fuel start.targetFrom.toNat = some start.scanned) ∧
      IsLeast { pfn | (taggedPages start target pfn).Nonempty } ctx.addrMapPfnMin.toNat ∧
      IsGreatest { pfn | (taggedPages start target pfn).Nonempty } ctx.addrMapPfnMax.toNat ∧
      (∀ pfn, ctx.addrMapPfnMin.toNat ≤ pfn → pfn < ctx.addrMapPfnMax.toNat →
        IsGreatest (taggedPages start target pfn) (getAddrMapVaddr ctx pfn).toNat ∨
          taggedPages start target pfn = ∅ ∧ getAddrMapVaddr ctx pfn = 0) ∧
      ∀ pfn pfn', ctx.addrMapPfnMin.toNat ≤ pfn → pfn < ctx.addrMapPfnMax.toNat →
        ctx.addrMapPfnMin.toNat ≤ pfn' → pfn' < ctx.addrMapPfnMax.toNat →
        getAddrMapVaddr ctx pfn ≠ 0 → getAddrMapVaddr ctx pfn = getAddrMapVaddr ctx pfn' →
          pfn = pfn' := by
  have some_tag := tags_ne_nil tagged
  have small : ∀ tag ∈ start.tags target, tag.toNat < 2 ^ 52 := fun tag tag_mem =>
    frames tag.toNat (mem_tags.mp tag_mem)
  have extremes := @extremes_fvpmemFindDimensions target start
  have min_mem := fvpmemFindDimensions_min_mem some_tag small
  have max_mem := fvpmemFindDimensions_max_mem some_tag
  have lookup : ∀ pfn, ctx.addrMapPfnMin.toNat ≤ pfn → pfn < ctx.addrMapPfnMax.toNat →
      IsGreatest (taggedPages start target pfn) (getAddrMapVaddr ctx pfn).toNat ∨
        taggedPages start target pfn = ∅ ∧ getAddrMapVaddr ctx pfn = 0 := fun pfn above below =>
    getAddrMapVaddr_bootScan success (fvpmemFindDimensions_min_le_max some_tag)
      (small _ max_mem) above below
  rcases bootScan_dims success with ⟨min_eq, max_eq⟩
  refine ⟨scanLoop_scanned, ?_, ?_, lookup, ?_⟩
  · rw [min_eq]
    refine ⟨mem_tags.mp min_mem, ?_⟩
    intro pfn page
    rcases exists_mem_tags page with ⟨tag, tag_mem, rfl⟩
    exact UInt64.le_iff_toNat_le.mp (extremes.min_le tag tag_mem)
  · rw [max_eq]
    refine ⟨mem_tags.mp max_mem, ?_⟩
    intro pfn page
    rcases exists_mem_tags page with ⟨tag, tag_mem, rfl⟩
    exact UInt64.le_iff_toNat_le.mp (extremes.le_max tag tag_mem)
  · intro pfn pfn' above below above' below' mapped same
    rcases lookup pfn above below with greatest | ⟨-, unmapped⟩
    · rcases lookup pfn' above' below' with greatest' | ⟨-, unmapped'⟩
      · -- the page carries both numbers, and it has one tag
        have page := (mem_taggedPages.mp greatest.1).2
        have page' := (mem_taggedPages.mp greatest'.1).2
        rw [← same] at page'
        rcases page with ⟨tag, tag_eq, rfl⟩
        rcases page' with ⟨tag', tag_eq', rfl⟩
        rw [tag_eq] at tag_eq'
        cases tag_eq'
        rfl
      · exact absurd (same.trans unmapped') mapped
    · exact absurd unmapped mapped

end

def twoTagged : Target := fun addr => some ⟨fvpControlMagic, UInt64.ofNat (addr / pageSize), 0⟩

def CtxStruct.twoTagged : CtxStruct :=
  { CtxStruct.zero with targetPid := 7, targetFrom := 0x1000, targetTo := 0x3000 }

theorem taggedPages_twoTagged {pfn : ℕ} :
    (taggedPages .twoTagged twoTagged pfn).Nonempty ↔ pfn = 1 ∨ pfn = 2 := by
  have range : CtxStruct.twoTagged.scanned = [0x1000, 0x2000] := by decide
  constructor
  · rintro ⟨addr, page⟩
    rcases mem_taggedPages.mp page with ⟨addr_mem, tag, tag_eq, rfl⟩
    rw [range] at addr_mem
    rcases List.mem_pair.mp addr_mem with rfl | rfl
    · cases tag_eq
      exact Or.inl rfl
    · cases tag_eq
      exact Or.inr rfl
  · rintro (rfl | rfl)
    · exact ⟨0x1000, mem_taggedPages.mpr ⟨by simp [range], 1, rfl, rfl⟩⟩
    · exact ⟨0x2000, mem_taggedPages.mpr ⟨by simp [range], 2, rfl, rfl⟩⟩

theorem bootScan_correct_twoTagged :
    (∃ tests, ∀ fuel, tests ≤ fuel →
      scanLoop CtxStruct.twoTagged.targetTo.toNat fuel CtxStruct.twoTagged.targetFrom.toNat =
        some CtxStruct.twoTagged.scanned) ∧
      IsLeast { pfn | (taggedPages .twoTagged twoTagged pfn).Nonempty }
        (bootScan (some fun _ => 0) .twoTagged twoTagged).2.addrMapPfnMin.toNat := by
  have correct := bootScan_correct ⟨1, taggedPages_twoTagged.mpr (Or.inl rfl)⟩
    (fun pfn page => by
      rcases taggedPages_twoTagged.mp page with rfl | rfl
      · norm_num
      · norm_num)
    (show bootScan (some fun _ => 0) .twoTagged twoTagged = (0, _) from rfl)
  exact ⟨correct.1 (by decide), correct.2.1⟩

/-! ## The accesses to the map -/

namespace CtxStruct

/-- The index of the array that an access for `pfn` gets to, if it gets to the array. -/
def accessed (ctx : CtxStruct) (pfn : ℕ) : Option ℕ :=
  if ctx.addrMapPfnMin.toNat ≤ pfn ∧ pfn ≤ ctx.addrMapPfnMax.toNat then
    some (pfn - ctx.addrMapPfnMin.toNat)
  else none

/-- The number of entries that `init_addr_map` has asked for. -/
def entries (ctx : CtxStruct) : ℕ := ctx.addrMapSize.toNat / 8

/-- The context after calls of `set_addr_map_vaddr`. -/
def storing (ctx : CtxStruct) (stores : List (ℕ × UInt64)) : CtxStruct :=
  stores.foldl (fun ctx store => setAddrMapVaddr ctx store.1 store.2) ctx

end CtxStruct

theorem getAddrMapVaddrVerify_eq_accessed (ctx : CtxStruct) (pfn : ℕ) :
    getAddrMapVaddrVerify ctx pfn = (ctx.accessed pfn).elim 0 ctx.addrMap := by
  simp only [getAddrMapVaddrVerify, CtxStruct.accessed]
  split <;> rfl

theorem setAddrMapVaddr_eq_accessed (ctx : CtxStruct) (pfn : ℕ) (vaddr : UInt64) :
    setAddrMapVaddr ctx pfn vaddr =
      (ctx.accessed pfn).elim ctx fun index =>
        { ctx with addrMap := Function.update ctx.addrMap index vaddr } := by
  simp only [setAddrMapVaddr, CtxStruct.accessed]
  split <;> rfl

theorem CtxStruct.storing_dims (ctx : CtxStruct) (stores : List (ℕ × UInt64)) :
    ctx.storing stores = { ctx with addrMap := (ctx.storing stores).addrMap } := by
  induction stores generalizing ctx with
  | nil => rfl
  | cons store stores ih =>
      have step : setAddrMapVaddr ctx store.1 store.2 =
          { ctx with addrMap := (setAddrMapVaddr ctx store.1 store.2).addrMap } := by
        rw [setAddrMapVaddr_eq_accessed]
        cases ctx.accessed store.1 <;> rfl
      rw [storing, List.foldl_cons, ← storing, ih, step]

/--
An access for `pfn` that gets to the array stays inside it if and only if `pfn`
does not lie between the first number that the array has no entry for and the
greatest one. For dimensions that are page frame numbers this is the greatest
number alone.
-/
theorem accessed_inBounds_iff {target : Target} {mmap : Option (ℕ → UInt64)}
    {start filled : CtxStruct} (tagged : ∃ pfn, (taggedPages start target pfn).Nonempty)
    (initialised : initAddrMap mmap
      { start with
        addrMapPfnMin := (fvpmemFindDimensions start target).1
        addrMapPfnMax := (fvpmemFindDimensions start target).2 }
      (fvpmemFindDimensions start target).1 (fvpmemFindDimensions start target).2 = (0, filled))
    (stores : List (ℕ × UInt64)) (pfn : ℕ) :
    (∀ index, (filled.storing stores).accessed pfn = some index →
        index < (filled.storing stores).entries) ↔
      ¬(filled.addrMapPfnMin.toNat +
          (filled.addrMapPfnMax.toNat - filled.addrMapPfnMin.toNat) % 2 ^ 61 ≤ pfn ∧
        pfn ≤ filled.addrMapPfnMax.toNat) := by
  have some_tag := tags_ne_nil tagged
  have ordered := fvpmemFindDimensions_min_le_max some_tag
  rcases initAddrMap_ok initialised with ⟨behind, -, -, filled_eq⟩
  have size : filled.addrMapSize.toNat =
      8 * ((filled.addrMapPfnMax.toNat - filled.addrMapPfnMin.toNat) % 2 ^ 61) := by
    rw [filled_eq]
    exact toNat_mapSize ordered
  rw [CtxStruct.storing_dims]
  simp only [CtxStruct.accessed, CtxStruct.entries, size, Option.ite_none_right_eq_some,
    Option.some.injEq]
  constructor
  · rintro inside ⟨above, below⟩
    have index_lt := inside _ ⟨⟨by omega, below⟩, rfl⟩
    omega
  · rintro notTail index ⟨⟨above, below⟩, rfl⟩
    omega

/-- The context between the two passes. -/
def initialisedTwo : CtxStruct :=
  (initAddrMap (some fun _ => 0)
    { CtxStruct.twoTagged with
      addrMapPfnMin := (fvpmemFindDimensions .twoTagged twoTagged).1
      addrMapPfnMax := (fvpmemFindDimensions .twoTagged twoTagged).2 }
    (fvpmemFindDimensions .twoTagged twoTagged).1
    (fvpmemFindDimensions .twoTagged twoTagged).2).2

theorem accessed_inBounds_first :
    (initialisedTwo.storing []).accessed 1 = some 0 ∧ 0 < (initialisedTwo.storing []).entries := by
  have first : (initialisedTwo.storing []).accessed 1 = some 0 := by
    decide
  have inside := @accessed_inBounds_iff twoTagged (some fun _ => 0) .twoTagged initialisedTwo
    ⟨1, taggedPages_twoTagged.mpr (Or.inl rfl)⟩ rfl [] 1
  exact ⟨first, inside.mpr (by decide) 0 first⟩

/-- The access for the greatest tag gets to the entry behind the last one. -/
theorem accessed_behind_lastEntry :
    ¬∀ (target : Target) (mmap : Option (ℕ → UInt64)) (start filled : CtxStruct),
      (∃ pfn, (taggedPages start target pfn).Nonempty) →
      initAddrMap mmap
        { start with
          addrMapPfnMin := (fvpmemFindDimensions start target).1
          addrMapPfnMax := (fvpmemFindDimensions start target).2 }
        (fvpmemFindDimensions start target).1 (fvpmemFindDimensions start target).2 =
          (0, filled) →
      ∀ (stores : List (ℕ × UInt64)) (pfn index : ℕ),
        (filled.storing stores).accessed pfn = some index →
          index < (filled.storing stores).entries := by
  intro claim
  have tagged : ∃ pfn, (taggedPages .twoTagged twoTagged pfn).Nonempty :=
    ⟨1, taggedPages_twoTagged.mpr (Or.inl rfl)⟩
  have inside := claim twoTagged (some fun _ => 0) .twoTagged initialisedTwo tagged rfl [] 2 1
    (by decide)
  exact absurd inside (by decide)

end Acai
