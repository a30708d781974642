import Acai.Escape.Layout
import Mathlib.Logic.Function.Basic

/-!
# Mapping the target's memory into the manager

The manager reaches the memory of the target by editing its own page tables: for
every page of a region, `fh_memory_map` saves the page-table entry of the host page
and makes it point to the frame of the target page. `fh_unmmap_region` writes the
saved entries back.

A page-table entry is named by the number of its virtual page. The entry that the
library resolves and the one that it edits are read on two ways; when they differ,
the map of a page fails. The clean-up of a region whose map fails half-way has a
loop condition that is never true, so its entries stay redirected.
-/

namespace Acai

/-- The page-table entries of the manager, by virtual page number. -/
abbrev PageTable := ℕ → UInt64

def pteditGetPfn (pte : UInt64) : UInt64 := (pte &&& (0xFFFFFFFFFF000 : UInt64)) >>> 12

def pteditSetPfn (pte pfn : UInt64) : UInt64 :=
  (pte &&& (0xFFF0000000000FFF : UInt64)) ||| (pfn <<< 12)

/-- One page of a region (`struct fh_memory_map_ctx`). -/
structure MemoryMapCtx where
  addr : ℕ
  hostMem : ℕ
  hostPt : UInt64
  hostPtEntry : ℕ

structure MmapRegionCtx where
  len : ℕ
  entries : Option (List MemoryMapCtx)

def MmapRegionCtx.zero : MmapRegionCtx := ⟨0, none⟩

def fhMemoryUnmap (host : PageTable) (req : MemoryMapCtx) : PageTable :=
  if req.hostMem = 0 then host else Function.update host req.hostPtEntry req.hostPt

/-- The redirected entry: the flags of the host page with the frame of the target page. -/
def redirectedPte (target : PageTable) (host : PageTable) (addr hostMem : ℕ) : UInt64 :=
  pteditSetPfn (host (hostMem / pageSize)) (pteditGetPfn (target (addr / pageSize)))

/-- `fh_memory_map`, for a page whose entry reads the same on both ways. -/
def fhMemoryMap (target host : PageTable) (addr hostMem : ℕ) : MemoryMapCtx × PageTable :=
  (⟨addr, hostMem, host (hostMem / pageSize), hostMem / pageSize⟩,
    Function.update host (hostMem / pageSize) (redirectedPte target host addr hostMem))

/-- What the system does for one call of `fh_mmap_region`. -/
structure RegionOutcome where
  calloc : Bool
  /-- Whether the entry of a page reads the same on both ways, by index. -/
  agrees : ℕ → Bool

/-- The loop of `fh_mmap_region` over `count` pages from `index` on: whether it reaches the end,
the pages that it has mapped, and the page table that it leaves. -/
def mmapRegionLoop (outcome : RegionOutcome) (target : PageTable) (targetAddr hostMem : ℕ) :
    ℕ → ℕ → PageTable → Bool × List MemoryMapCtx × PageTable
  | 0, _, host => (true, [], host)
  | count + 1, index, host =>
      if !outcome.agrees index then (false, [], host)
      else
        let (entry, host') := fhMemoryMap target host
          (targetAddr / pageSize * pageSize + index * pageSize) (hostMem + index * pageSize)
        let (done, entries, host'') :=
          mmapRegionLoop outcome target targetAddr hostMem count (index + 1) host'
        (done, entry :: entries, host'')

/-- `fh_mmap_region` after its assertions: its result, the region in `ret_ctx` and the page
table. -/
def fhMmapRegion (outcome : RegionOutcome) (target : PageTable) (targetAddr len hostMem : ℕ)
    (region : MmapRegionCtx) (host : PageTable) : ℤ × MmapRegionCtx × PageTable :=
  let count := len / pageSize
  if !outcome.calloc then (-1, region, host)
  else
    match mmapRegionLoop outcome target targetAddr hostMem count 0 host with
    | (true, entries, host') => (0, ⟨count, some entries⟩, host')
    -- `for (j = 0; i < i; j += 1)` unmaps nothing
    | (false, _, host') => (-1, region, host')

def fhUnmmapRegion (region : MmapRegionCtx) (host : PageTable) : MmapRegionCtx × PageTable :=
  match region.entries with
  | none => (region, host)
  | some entries => (.zero, (entries.take region.len).foldl fhMemoryUnmap host)

section

variable {outcome : RegionOutcome} {target : PageTable} {targetAddr hostMem : ℕ}

theorem mmapRegionLoop_succ {count index : ℕ} {host host' : PageTable}
    {entries : List MemoryMapCtx}
    (mapped : mmapRegionLoop outcome target targetAddr hostMem (count + 1) index host =
      (true, entries, host')) :
    ∃ addr rest,
      mmapRegionLoop outcome target targetAddr hostMem count (index + 1)
        (fhMemoryMap target host addr (hostMem + index * pageSize)).2 = (true, rest, host') ∧
      entries = (fhMemoryMap target host addr (hostMem + index * pageSize)).1 :: rest := by
  rw [mmapRegionLoop] at mapped
  split at mapped
  · cases mapped
  · rcases rest_eq : mmapRegionLoop outcome target targetAddr hostMem count (index + 1)
      (fhMemoryMap target host (targetAddr / pageSize * pageSize + index * pageSize)
        (hostMem + index * pageSize)).2 with ⟨done, rest, host''⟩
    simp only [rest_eq] at mapped
    cases mapped
    exact ⟨_, rest, rest_eq, rfl⟩

theorem length_mmapRegionLoop {count index : ℕ} {host host' : PageTable}
    {entries : List MemoryMapCtx}
    (mapped : mmapRegionLoop outcome target targetAddr hostMem count index host =
      (true, entries, host')) : entries.length = count := by
  induction count generalizing index host entries with
  | zero =>
      cases mapped
      rfl
  | succ count ih =>
      rcases mmapRegionLoop_succ mapped with ⟨addr, rest, rest_eq, rfl⟩
      rw [List.length_cons, ih rest_eq]

theorem mmapRegionLoop_entries {count index : ℕ} {host host' : PageTable}
    {entries : List MemoryMapCtx} (present : hostMem ≠ 0)
    (mapped : mmapRegionLoop outcome target targetAddr hostMem count index host =
      (true, entries, host')) {entry : MemoryMapCtx} (entry_mem : entry ∈ entries) :
    entry.hostMem ≠ 0 ∧ hostMem / pageSize + index ≤ entry.hostPtEntry ∧
      entry.hostPtEntry < hostMem / pageSize + index + count := by
  induction count generalizing index host entries with
  | zero =>
      cases mapped
      cases entry_mem
  | succ count ih =>
      rcases mmapRegionLoop_succ mapped with ⟨addr, rest, rest_eq, rfl⟩
      rcases List.mem_cons.mp entry_mem with rfl | later
      · simp only [fhMemoryMap]
        refine ⟨by omega, ?_⟩
        rw [Nat.add_mul_div_right _ _ (by decide)]
        omega
      · have rest := ih rest_eq later
        exact ⟨rest.1, by omega, by omega⟩

theorem foldl_fhMemoryUnmap_update {entries : List MemoryMapCtx} (page : ℕ) (pte : UInt64)
    (host : PageTable) (others : ∀ entry ∈ entries, entry.hostPtEntry ≠ page) :
    entries.foldl fhMemoryUnmap (Function.update host page pte) =
      Function.update (entries.foldl fhMemoryUnmap host) page pte := by
  induction entries generalizing host with
  | nil => rfl
  | cons entry entries ih =>
      have rest := ih (fhMemoryUnmap host entry)
        (fun other other_mem => others other (List.mem_cons_of_mem _ other_mem))
      rw [List.foldl_cons, List.foldl_cons, ← rest]
      congr 1
      unfold fhMemoryUnmap
      split
      · rfl
      · exact Function.update_comm (others entry List.mem_cons_self).symm _ _ _

/-- Writing the saved entries back undoes the loop. -/
theorem foldl_fhMemoryUnmap_mmapRegionLoop {count index : ℕ} {host host' : PageTable}
    {entries : List MemoryMapCtx} (present : hostMem ≠ 0)
    (mapped : mmapRegionLoop outcome target targetAddr hostMem count index host =
      (true, entries, host')) : entries.foldl fhMemoryUnmap host' = host := by
  induction count generalizing index host entries with
  | zero =>
      cases mapped
      rfl
  | succ count ih =>
      rcases mmapRegionLoop_succ mapped with ⟨addr, rest, rest_eq, rfl⟩
      have here : (hostMem + index * pageSize) / pageSize = hostMem / pageSize + index :=
        Nat.add_mul_div_right _ _ (by decide)
      have others : ∀ entry ∈ rest,
          entry.hostPtEntry ≠ (hostMem + index * pageSize) / pageSize := by
        intro entry entry_mem
        have later := (mmapRegionLoop_entries present rest_eq entry_mem).2.1
        omega
      have notNull : hostMem + index * pageSize ≠ 0 := by omega
      rw [List.foldl_cons, fhMemoryUnmap]
      simp only [fhMemoryMap, notNull, ↓reduceIte]
      rw [foldl_fhMemoryUnmap_update _ _ _ others, ih rest_eq]
      simp only [fhMemoryMap, Function.update_idem, Function.update_eq_self]

/-- Unmapping a region gives back the page table that `fh_mmap_region` found. -/
theorem fhUnmmapRegion_fhMmapRegion {len : ℕ} {region region' : MmapRegionCtx}
    {host host' : PageTable} (present : hostMem ≠ 0)
    (mapped : fhMmapRegion outcome target targetAddr len hostMem region host =
      (0, region', host')) : fhUnmmapRegion region' host' = (.zero, host) := by
  simp only [fhMmapRegion] at mapped
  split at mapped
  · cases mapped
  split at mapped
  · rename_i entries host'' loop
    cases mapped
    have length := length_mmapRegionLoop loop
    simp only [fhUnmmapRegion]
    rw [List.take_of_length_le length.le, foldl_fhMemoryUnmap_mmapRegionLoop present loop]
  · cases mapped

def RegionOutcome.Succeeds (outcome : RegionOutcome) (count : ℕ) : Prop :=
  outcome.calloc = true ∧ ∀ index < count, outcome.agrees index = true

/-- The system does not let the map of a region fail half-way. -/
def RegionOutcome.AllOrNothing (outcome : RegionOutcome) (count : ℕ) : Prop :=
  outcome.Succeeds count ∨ outcome.calloc = false ∨ outcome.agrees 0 = false

theorem mmapRegionLoop_of_agrees {count index : ℕ}
    (agrees : ∀ page < index + count, outcome.agrees page = true) (host : PageTable) :
    (mmapRegionLoop outcome target targetAddr hostMem count index host).1 = true := by
  induction count generalizing index host with
  | zero => rfl
  | succ count ih =>
      have here := agrees index (by omega)
      simp only [mmapRegionLoop, here, Bool.not_true, Bool.false_eq_true, ↓reduceIte]
      apply ih
      intro page page_lt
      exact agrees page (by omega)

theorem fhMmapRegion_failed {len : ℕ} {region region' : MmapRegionCtx} {host host' : PageTable}
    {ret : ℤ} (whole : outcome.AllOrNothing (len / pageSize))
    (failed : fhMmapRegion outcome target targetAddr len hostMem region host =
      (ret, region', host')) (nonzero : ret ≠ 0) : region' = region ∧ host' = host := by
  simp only [fhMmapRegion] at failed
  split at failed
  · cases failed
    exact ⟨rfl, rfl⟩
  rename_i allocated
  split at failed
  · cases failed
    exact absurd rfl nonzero
  · rename_i entries host'' loop
    cases failed
    refine ⟨rfl, ?_⟩
    rcases whole with success | noMemory | disagrees
    · have done := @mmapRegionLoop_of_agrees outcome target targetAddr hostMem (len / pageSize) 0
        (by rw [Nat.zero_add]; exact success.2) host
      rw [loop] at done
      cases done
    · simp [noMemory] at allocated
    · cases count_eq : len / pageSize with
      | zero =>
          rw [count_eq] at loop
          cases loop
      | succ count =>
          rw [count_eq, mmapRegionLoop, disagrees] at loop
          cases loop
          rfl

theorem fhMmapRegion_succeeded {len : ℕ} {region : MmapRegionCtx} {host : PageTable}
    (whole : outcome.AllOrNothing (len / pageSize)) (nonempty : len / pageSize ≠ 0)
    (success : (fhMmapRegion outcome target targetAddr len hostMem region host).1 = 0) :
    outcome.Succeeds (len / pageSize) := by
  rcases whole with succeeds | noMemory | disagrees
  · exact succeeds
  · simp only [fhMmapRegion, noMemory] at success
    cases success
  · cases count_eq : len / pageSize with
    | zero => exact absurd count_eq nonempty
    | succ count =>
        simp only [fhMmapRegion, count_eq, mmapRegionLoop, disagrees] at success
        split at success <;> cases success

theorem hostMem_page (index : ℕ) :
    (hostMem + index * pageSize) / pageSize = hostMem / pageSize + index :=
  Nat.add_mul_div_right _ _ (by decide)

/-- The loop changes no entry outside of its pages. -/
theorem mmapRegionLoop_outside {count index page : ℕ}
    (outside : page < hostMem / pageSize + index ∨ hostMem / pageSize + index + count ≤ page)
    (host : PageTable) :
    (mmapRegionLoop outcome target targetAddr hostMem count index host).2.2 page = host page := by
  induction count generalizing index host with
  | zero => rfl
  | succ count ih =>
      rw [mmapRegionLoop]
      split
      · rfl
      · have other : page ≠ (hostMem + index * pageSize) / pageSize := by
          rw [hostMem_page]
          omega
        dsimp only
        rw [ih (by omega)]
        exact Function.update_of_ne other _ _

theorem mmapRegionLoop_before {count index page : ℕ} (before : page < hostMem / pageSize + index)
    (host : PageTable) :
    (mmapRegionLoop outcome target targetAddr hostMem count index host).2.2 page = host page :=
  mmapRegionLoop_outside (Or.inl before) host

/-- Each page of a mapped region has the frame of its target page. -/
theorem mmapRegionLoop_inside {count index page : ℕ} {host host' : PageTable}
    {entries : List MemoryMapCtx}
    (mapped : mmapRegionLoop outcome target targetAddr hostMem count index host =
      (true, entries, host')) (from_index : index ≤ page) (below : page < index + count) :
    host' (hostMem / pageSize + page) =
      redirectedPte target host (targetAddr / pageSize * pageSize + page * pageSize)
        (hostMem + page * pageSize) := by
  induction count generalizing index host entries with
  | zero => omega
  | succ count ih =>
      have agrees : outcome.agrees index = true := by
        by_contra disagrees
        rw [Bool.not_eq_true] at disagrees
        rw [mmapRegionLoop, disagrees] at mapped
        cases mapped
      rw [mmapRegionLoop, agrees] at mapped
      simp only [Bool.not_true, Bool.false_eq_true, ↓reduceIte, Prod.mk.injEq] at mapped
      obtain ⟨done, -, host_eq⟩ := mapped
      rcases eq_or_lt_of_le from_index with rfl | later
      · have kept := @mmapRegionLoop_before outcome target targetAddr hostMem count (index + 1)
          (hostMem / pageSize + index) (by omega)
        rw [← host_eq, kept, fhMemoryMap, hostMem_page]
        exact Function.update_self _ _ _
      · have other : (hostMem + page * pageSize) / pageSize ≠
            (hostMem + index * pageSize) / pageSize := by
          rw [hostMem_page, hostMem_page]
          omega
        rw [ih (Prod.ext done (Prod.ext rfl host_eq)) later (by omega), redirectedPte,
          redirectedPte, fhMemoryMap]
        dsimp only
        rw [Function.update_of_ne other]

theorem fhMmapRegion_redirects {len : ℕ} (succeeds : outcome.Succeeds (len / pageSize))
    (nonempty : len / pageSize ≠ 0) (region : MmapRegionCtx) (host : PageTable) :
    (fhMmapRegion outcome target targetAddr len hostMem region host).1 = 0 ∧
      (fhMmapRegion outcome target targetAddr len hostMem region host).2.2 (hostMem / pageSize) =
        redirectedPte target host (targetAddr / pageSize * pageSize) hostMem := by
  rcases loop : mmapRegionLoop outcome target targetAddr hostMem (len / pageSize) 0 host
    with ⟨done, entries, host'⟩
  have done_eq := @mmapRegionLoop_of_agrees outcome target targetAddr hostMem (len / pageSize) 0
    (by rw [Nat.zero_add]; exact succeeds.2) host
  rw [loop] at done_eq
  cases done_eq
  simp only [fhMmapRegion, succeeds.1, loop, Bool.not_true, Bool.false_eq_true, ↓reduceIte,
    true_and]
  cases count_eq : len / pageSize with
  | zero => exact absurd count_eq nonempty
  | succ count =>
      have agrees := succeeds.2 0 (by omega)
      have first := congrArg (fun result => result.2.2 (hostMem / pageSize)) loop
      simp only [count_eq, mmapRegionLoop, agrees, Bool.not_true, Bool.false_eq_true,
        ↓reduceIte] at first
      rw [mmapRegionLoop_before (by omega)] at first
      rw [← first]
      simp [fhMemoryMap]

end

end Acai
