import Acai.Manager.RegionMap
import Mathlib.Data.BitVec

/-!
# Page-table entries in memory

`fh_memory_map` does not name a page-table entry by its page: it takes the frame of
the page table from the entry above it, maps that frame, and finds the entry by the
bits 12 to 20 of the address. This file gives the map and the unmap of a region on
the memory that holds the page tables.

Every mapped 2 MiB region of an address space has a page table of its own
(`HostTables.distinct`), so an entry belongs to one page. Over such tables the
functions here do to the memory what those of `RegionMap` do to a table indexed by
pages (`mmapRegionLoop_overlay`).

A region holds one mapping of a page table for each of its pages, and a process has
fewer than `2 ^ 31` mappings, so that the `int` that counts the entries of a region
does not overflow.
-/

namespace Acai

/-! ## The frame of an entry -/

/-- The bits of an entry that hold its frame. -/
def IsFrameBit (index : ℕ) : Prop := 12 ≤ index ∧ index < 52

instance (index : ℕ) : Decidable (IsFrameBit index) := inferInstanceAs (Decidable (_ ∧ _))

theorem getLsbD_frameMask (index : ℕ) :
    (UInt64.toBitVec 0xFFFFFFFFFF000).getLsbD index = decide (IsFrameBit index) := by
  have mask : UInt64.toBitVec 0xFFFFFFFFFF000 = BitVec.ofNat 64 (2 ^ 40 - 1) <<< 12 := by decide
  rw [mask, BitVec.getLsbD_shiftLeft, BitVec.getLsbD_ofNat, Nat.testBit_two_pow_sub_one,
    Bool.eq_iff_iff]
  simp only [Bool.and_eq_true, Bool.not_eq_true', decide_eq_true_eq, decide_eq_false_iff_not]
  rw [IsFrameBit]
  omega

theorem getLsbD_flagsMask {index : ℕ} (inside : index < 64) :
    (UInt64.toBitVec 0xFFF0000000000FFF).getLsbD index = !decide (IsFrameBit index) := by
  have mask : UInt64.toBitVec 0xFFF0000000000FFF = ~~~UInt64.toBitVec 0xFFFFFFFFFF000 := by
    decide
  rw [mask, BitVec.getLsbD_not, getLsbD_frameMask, decide_eq_true inside, Bool.true_and]

theorem getLsbD_pteditGetPfn (pte : UInt64) (index : ℕ) :
    (pteditGetPfn pte).toBitVec.getLsbD index =
      (decide (index < 40) && pte.toBitVec.getLsbD (12 + index)) := by
  have shift : UInt64.toBitVec 12 % 64 = 12#64 := by decide
  rw [pteditGetPfn, UInt64.toBitVec_shiftRight, shift, UInt64.toBitVec_and, BitVec.ushiftRight_eq',
    BitVec.getLsbD_ushiftRight, BitVec.getLsbD_and, show (12#64).toNat = 12 from rfl,
    getLsbD_frameMask, Bool.and_comm]
  congr 1
  rw [Bool.eq_iff_iff]
  simp only [decide_eq_true_eq]
  rw [IsFrameBit]
  omega

theorem getLsbD_pteditSetPfn (pte pfn : UInt64) {index : ℕ} (inside : index < 64) :
    (pteditSetPfn pte pfn).toBitVec.getLsbD index =
      (!decide (IsFrameBit index) && pte.toBitVec.getLsbD index ||
        decide (12 ≤ index) && pfn.toBitVec.getLsbD (index - 12)) := by
  have shift : UInt64.toBitVec 12 % 64 = 12#64 := by decide
  have behind : (!decide (index < 12)) = decide (12 ≤ index) := by
    rw [Bool.eq_iff_iff]
    simp
  rw [pteditSetPfn, UInt64.toBitVec_or, UInt64.toBitVec_and, UInt64.toBitVec_shiftLeft, shift,
    BitVec.getLsbD_or, BitVec.getLsbD_and, getLsbD_flagsMask inside, BitVec.shiftLeft_eq',
    BitVec.getLsbD_shiftLeft, show (12#64).toNat = 12 from rfl, decide_eq_true inside,
    Bool.true_and, behind, Bool.and_comm (pte.toBitVec.getLsbD index)]

/-- The bits of an entry that is given the frame of another. -/
theorem getLsbD_setPfn_getPfn (pte victim : UInt64) {index : ℕ} (inside : index < 64) :
    (pteditSetPfn pte (pteditGetPfn victim)).toBitVec.getLsbD index =
      if IsFrameBit index then victim.toBitVec.getLsbD index else pte.toBitVec.getLsbD index := by
  rw [getLsbD_pteditSetPfn pte _ inside, getLsbD_pteditGetPfn]
  split
  · rename_i frame
    rcases frame with ⟨behind, before⟩
    have inFrame : index - 12 < 40 := by omega
    simp [IsFrameBit, behind, before, inFrame]
  · rename_i flags
    have outside : (decide (12 ≤ index) && decide (index - 12 < 40)) = false := by
      simp only [IsFrameBit] at flags
      simp
      omega
    rw [decide_eq_false flags, ← Bool.and_assoc, outside]
    simp

/-- `ptedit_set_pfn` replaces the frame of an entry. -/
theorem pteditGetPfn_setPfn_getPfn (pte victim : UInt64) :
    pteditGetPfn (pteditSetPfn pte (pteditGetPfn victim)) = pteditGetPfn victim := by
  rw [← UInt64.toBitVec_inj]
  apply BitVec.eq_of_getLsbD_eq
  intro index inside
  rw [getLsbD_pteditGetPfn, getLsbD_pteditGetPfn]
  by_cases inFrame : index < 40
  · rw [getLsbD_setPfn_getPfn _ _ (by omega), if_pos ⟨by omega, by omega⟩]
  · simp [inFrame]

/-- `ptedit_set_pfn` leaves the other bits of an entry as they are. -/
theorem pteditSetPfn_getPfn_flags (pte victim : UInt64) :
    pteditSetPfn pte (pteditGetPfn victim) &&& 0xFFF0000000000FFF =
      pte &&& 0xFFF0000000000FFF := by
  rw [← UInt64.toBitVec_inj, UInt64.toBitVec_and, UInt64.toBitVec_and]
  apply BitVec.eq_of_getLsbD_eq
  intro index inside
  rw [BitVec.getLsbD_and, BitVec.getLsbD_and, getLsbD_flagsMask inside,
    getLsbD_setPfn_getPfn _ _ inside]
  split
  · rename_i frame
    simp [frame]
  · rfl

/-- An entry stays as it is exactly if it has the new frame already. -/
theorem pteditSetPfn_getPfn_eq_iff (pte victim : UInt64) :
    pteditSetPfn pte (pteditGetPfn victim) = pte ↔ pteditGetPfn victim = pteditGetPfn pte := by
  constructor
  · intro same
    rw [← pteditGetPfn_setPfn_getPfn pte victim, same]
  · intro same
    rw [same, ← UInt64.toBitVec_inj]
    apply BitVec.eq_of_getLsbD_eq
    intro index inside
    rw [getLsbD_setPfn_getPfn _ _ inside]
    split <;> rfl

/-! ## The functions on the memory -/

/-- The place of a page-table entry. -/
structure PteSlot where
  tablePfn : ℕ
  entry : ℕ
  deriving DecidableEq

/-- The memory that holds the page tables, by entries. -/
abbrev PteMemory := PteSlot → UInt64

def regionSize : ℕ := 512 * pageSize

/-- The page tables of the manager, as they are found from the entries above them. -/
structure HostTables where
  /-- `pfn` of the entry above the page table of a 2 MiB region. -/
  pmdPfn : ℕ → ℕ
  /-- The region is mapped in pages of 4 KiB. -/
  HasTable : ℕ → Prop
  distinct : ∀ {region region'}, HasTable region → HasTable region' →
    pmdPfn region = pmdPfn region' → region = region'

/-- One page of a region (`struct fh_memory_map_ctx`), with the place of its entry. -/
structure SlotMapCtx where
  addr : ℕ
  hostMem : ℕ
  hostPt : UInt64
  hostPtEntry : PteSlot

structure SlotRegionCtx where
  len : ℕ
  entries : Option (List SlotMapCtx)

def SlotRegionCtx.zero : SlotRegionCtx := ⟨0, none⟩

/-- What the system does for one call of `fh_mmap_region`. -/
structure ResolveOutcome where
  calloc : Bool
  /-- What `ptedit_resolve` reads for the page at an index, by what its entry holds. -/
  resolved : ℕ → UInt64 → UInt64

namespace HostTables

variable (tables : HostTables)

/-- The entry of a host address: `pt_pfn` and `entry` of `fh_memory_map`. -/
def slot (hostMem : ℕ) : PteSlot where
  tablePfn := tables.pmdPfn (hostMem / regionSize)
  entry := hostMem / pageSize % 512

def fhMemoryMap (resolved : UInt64 → UInt64) (target : PageTable) (addr hostMem : ℕ)
    (mem : PteMemory) : Option (SlotMapCtx × PteMemory) :=
  let victim := target (addr / pageSize)
  let mappedEntry := tables.slot hostMem
  let hostEntry := resolved (mem mappedEntry)
  if mem mappedEntry ≠ hostEntry then none
  else some (⟨addr, hostMem, hostEntry, mappedEntry⟩,
    Function.update mem mappedEntry (pteditSetPfn (mem mappedEntry) (pteditGetPfn victim)))

def fhMemoryUnmap (mem : PteMemory) (req : SlotMapCtx) : PteMemory :=
  if req.hostMem = 0 then mem else Function.update mem req.hostPtEntry req.hostPt

/-- The address of the target page at an index; the sum is one of `unsigned long`. -/
def targetPageAddr (targetAddr index : ℕ) : ℕ :=
  u64 (targetAddr / pageSize * pageSize + index * pageSize)

/-- The loop of `fh_mmap_region` over `count` pages from `index` on: whether it reaches the end,
the pages that it has mapped, and the memory that it leaves. -/
def mmapRegionLoop (outcome : ResolveOutcome) (target : PageTable) (targetAddr hostMem : ℕ) :
    ℕ → ℕ → PteMemory → Bool × List SlotMapCtx × PteMemory
  | 0, _, mem => (true, [], mem)
  | count + 1, index, mem =>
      match tables.fhMemoryMap (outcome.resolved index) target (targetPageAddr targetAddr index)
        (hostMem + index * pageSize) mem with
      | none => (false, [], mem)
      | some (entry, mem') =>
          let (done, entries, mem'') :=
            mmapRegionLoop outcome target targetAddr hostMem count (index + 1) mem'
          (done, entry :: entries, mem'')

/-- `fh_mmap_region` after its assertions: its result, the region in `ret_ctx` and the memory. -/
def fhMmapRegion (outcome : ResolveOutcome) (target : PageTable) (targetAddr len hostMem : ℕ)
    (region : SlotRegionCtx) (mem : PteMemory) : ℤ × SlotRegionCtx × PteMemory :=
  let count := len / pageSize
  if !outcome.calloc then (-1, region, mem)
  else
    match tables.mmapRegionLoop outcome target targetAddr hostMem count 0 mem with
    | (true, entries, mem') => (0, ⟨count, some entries⟩, mem')
    -- `for (j = 0; i < i; j += 1)` unmaps nothing
    | (false, _, mem') => (-1, region, mem')

def fhUnmmapRegion (region : SlotRegionCtx) (mem : PteMemory) : SlotRegionCtx × PteMemory :=
  match region.entries with
  | none => (region, mem)
  | some entries => (.zero, (entries.take region.len).foldl fhMemoryUnmap mem)

/-! ## The host's entries as a table -/

/-- The place of the entry of a page. -/
def pageSlot (page : ℕ) : PteSlot where
  tablePfn := tables.pmdPfn (page / 512)
  entry := page % 512

def Present (page : ℕ) : Prop := tables.HasTable (page / 512)

variable {tables}

theorem slot_eq_pageSlot (hostMem : ℕ) :
    tables.slot hostMem = tables.pageSlot (hostMem / pageSize) := by
  rw [slot, pageSlot, Nat.div_div_eq_div_mul, Nat.mul_comm, regionSize]

theorem pageSlot_inj {page page' : ℕ} (present : tables.Present page)
    (present' : tables.Present page') :
    tables.pageSlot page = tables.pageSlot page' ↔ page = page' := by
  constructor
  · intro same
    obtain ⟨tablePfn, entry⟩ := PteSlot.mk.inj same
    have region := tables.distinct present present' tablePfn
    omega
  · rintro rfl
    rfl

variable (tables)

open Classical in
/-- The memory with the entries of the host's pages replaced by those of a table. -/
noncomputable def overlay (mem : PteMemory) (host : PageTable) : PteMemory := fun slot =>
  if found : ∃ page, tables.Present page ∧ tables.pageSlot page = slot then host found.choose
  else mem slot

/-- The entries of the host's pages. -/
def view (mem : PteMemory) : PageTable := fun page => mem (tables.pageSlot page)

variable {tables}

theorem overlay_pageSlot {page : ℕ} (present : tables.Present page) (mem : PteMemory)
    (host : PageTable) : tables.overlay mem host (tables.pageSlot page) = host page := by
  have found : ∃ page', tables.Present page' ∧ tables.pageSlot page' = tables.pageSlot page :=
    ⟨page, present, rfl⟩
  rw [overlay, dif_pos found, (pageSlot_inj found.choose_spec.1 present).mp found.choose_spec.2]

theorem overlay_of_notPage {slot : PteSlot}
    (notPage : ∀ page, tables.Present page → tables.pageSlot page ≠ slot) (mem : PteMemory)
    (host : PageTable) : tables.overlay mem host slot = mem slot := by
  rw [overlay, dif_neg]
  rintro ⟨page, present, same⟩
  exact notPage page present same

/-- Two memories that agree on the entries of the host and elsewhere. -/
theorem ext_slots {left right : PteMemory}
    (pages : ∀ page, tables.Present page →
      left (tables.pageSlot page) = right (tables.pageSlot page))
    (others : ∀ slot, (∀ page, tables.Present page → tables.pageSlot page ≠ slot) →
      left slot = right slot) : left = right := by
  funext slot
  by_cases page : ∃ page, tables.Present page ∧ tables.pageSlot page = slot
  · rcases page with ⟨page, present, rfl⟩
    exact pages page present
  · apply others
    intro other present same
    exact page ⟨other, present, same⟩

theorem overlay_view (mem : PteMemory) : tables.overlay mem (tables.view mem) = mem := by
  refine @ext_slots tables _ _ ?_ ?_
  · intro page present
    exact overlay_pageSlot present mem _
  · intro slot notPage
    exact overlay_of_notPage notPage mem _

theorem overlay_update {page : ℕ} (present : tables.Present page) (mem : PteMemory)
    (host : PageTable) (pte : UInt64) :
    Function.update (tables.overlay mem host) (tables.pageSlot page) pte =
      tables.overlay mem (Function.update host page pte) := by
  refine @ext_slots tables _ _ ?_ ?_
  · intro other otherPresent
    rw [overlay_pageSlot otherPresent]
    by_cases same : other = page
    · rw [same, Function.update_self, Function.update_self]
    · have apart : tables.pageSlot other ≠ tables.pageSlot page := fun slots =>
        same ((pageSlot_inj otherPresent present).mp slots)
      rw [Function.update_of_ne apart, Function.update_of_ne same, overlay_pageSlot otherPresent]
  · intro slot notPage
    rw [Function.update_of_ne (notPage page present).symm, overlay_of_notPage notPage,
      overlay_of_notPage notPage]

/-! ## The functions over the host's entries -/

variable (tables)

/-- A mapped page with the place of its entry. -/
def place (entry : MemoryMapCtx) : SlotMapCtx :=
  ⟨u64 entry.addr, entry.hostMem, entry.hostPt, tables.pageSlot entry.hostPtEntry⟩

variable {tables}

/-- The target's table, for addresses that wrap around at 64 bits. -/
def wrapped (target : PageTable) : PageTable := fun page => target (page % 2 ^ 52)

theorem target_targetPageAddr (target : PageTable) (targetAddr index : ℕ) :
    target (targetPageAddr targetAddr index / pageSize) =
      wrapped target ((targetAddr / pageSize * pageSize + index * pageSize) / pageSize) := by
  rw [wrapped, targetPageAddr]
  congr 1
  simp only [u64, pageSize]
  omega

variable {target : PageTable} {targetAddr hostMem : ℕ} {outcome : ResolveOutcome}

theorem fhMemoryMap_overlay {index : ℕ} {resolved : UInt64 → UInt64}
    (present : tables.Present (hostMem / pageSize + index)) (mem : PteMemory) (host : PageTable) :
    tables.fhMemoryMap resolved target (targetPageAddr targetAddr index)
        (hostMem + index * pageSize) (tables.overlay mem host) =
      if host (hostMem / pageSize + index) = resolved (host (hostMem / pageSize + index)) then
        some (tables.place (Acai.fhMemoryMap (wrapped target) host
            (targetAddr / pageSize * pageSize + index * pageSize) (hostMem + index * pageSize)).1,
          tables.overlay mem (Acai.fhMemoryMap (wrapped target) host
            (targetAddr / pageSize * pageSize + index * pageSize) (hostMem + index * pageSize)).2)
      else none := by
  rw [fhMemoryMap, slot_eq_pageSlot, hostMem_page, overlay_pageSlot present]
  by_cases same : host (hostMem / pageSize + index) = resolved (host (hostMem / pageSize + index))
  · rw [if_neg (not_not.mpr same), if_pos same, ← same, target_targetPageAddr target,
      overlay_update present]
    simp only [place, Acai.fhMemoryMap, redirectedPte, hostMem_page, targetPageAddr]
  · rw [if_pos same, if_neg same]

/-- The outcome by pages: an entry agrees if `ptedit_resolve` reads what the entry holds. -/
def regionOutcome (outcome : ResolveOutcome) (hostMem : ℕ) (host : PageTable) : RegionOutcome where
  calloc := outcome.calloc
  agrees index :=
    host (hostMem / pageSize + index) ==
      outcome.resolved index (host (hostMem / pageSize + index))

/-- Over the entries of the host, the loop on the memory is the loop on a table of pages. -/
theorem mmapRegionLoop_overlay {pages : RegionOutcome} {count index : ℕ} (mem : PteMemory)
    {host : PageTable}
    (agrees : ∀ page, index ≤ page → page < index + count → pages.agrees page =
      (regionOutcome outcome hostMem host).agrees page)
    (present : ∀ page, index ≤ page → page < index + count →
      tables.Present (hostMem / pageSize + page)) :
    tables.mmapRegionLoop outcome target targetAddr hostMem count index
        (tables.overlay mem host) =
      Prod.map id (Prod.map (List.map tables.place) (tables.overlay mem))
        (Acai.mmapRegionLoop pages (wrapped target) targetAddr hostMem count index host) := by
  induction count generalizing index host with
  | zero => rfl
  | succ count ih =>
      have here := agrees index le_rfl (by omega)
      rw [mmapRegionLoop, Acai.mmapRegionLoop,
        fhMemoryMap_overlay (present index le_rfl (by omega))]
      by_cases same : host (hostMem / pageSize + index) =
          outcome.resolved index (host (hostMem / pageSize + index))
      · have agreed : pages.agrees index = true := by
          rw [here]
          simpa [regionOutcome] using same
        simp only [if_pos same, agreed, Bool.not_true, Bool.false_eq_true, ↓reduceIte]
        rw [ih]
        · rfl
        · intro page after before
          have other : hostMem / pageSize + page ≠ (hostMem + index * pageSize) / pageSize := by
            rw [hostMem_page]
            omega
          rw [agrees page (by omega) (by omega)]
          simp only [regionOutcome, Acai.fhMemoryMap, Function.update_of_ne other]
        · exact fun page after before => present page (by omega) (by omega)
      · have disagreed : pages.agrees index = false := by
          rw [here]
          simpa [regionOutcome] using same
        simp only [if_neg same, disagreed, Bool.not_false, ↓reduceIte]
        rfl

theorem foldl_fhMemoryUnmap_overlay {entries : List MemoryMapCtx} (mem : PteMemory)
    {host : PageTable} (present : ∀ entry ∈ entries, tables.Present entry.hostPtEntry) :
    (entries.map tables.place).foldl fhMemoryUnmap (tables.overlay mem host) =
      tables.overlay mem (entries.foldl Acai.fhMemoryUnmap host) := by
  induction entries generalizing host with
  | nil => rfl
  | cons entry entries ih =>
      have first : fhMemoryUnmap (tables.overlay mem host) (tables.place entry) =
          tables.overlay mem (Acai.fhMemoryUnmap host entry) := by
        rw [fhMemoryUnmap, Acai.fhMemoryUnmap, place]
        split
        · rfl
        · exact overlay_update (present entry (List.mem_cons_self ..)) mem host entry.hostPt
      rw [List.map_cons, List.foldl_cons, List.foldl_cons, first]
      exact ih fun other other_mem => present other (List.mem_cons_of_mem _ other_mem)

/-! ## Mapping and unmapping a region -/

/-- The entry of the page at an index has the frame of its target page and is unchanged
otherwise. -/
structure Redirects (tables : HostTables) (target : PageTable) (targetAddr hostMem index : ℕ)
    (mem mem' : PteMemory) : Prop where
  frame : pteditGetPfn (mem' (tables.slot (hostMem + index * pageSize))) =
    pteditGetPfn (target (targetPageAddr targetAddr index / pageSize))
  flags : mem' (tables.slot (hostMem + index * pageSize)) &&& 0xFFF0000000000FFF =
    mem (tables.slot (hostMem + index * pageSize)) &&& 0xFFF0000000000FFF

/-- The pages of a region are mapped by page tables. -/
def PresentPages (tables : HostTables) (hostMem count : ℕ) : Prop :=
  ∀ index < count, tables.HasTable ((hostMem + index * pageSize) / regionSize)

theorem PresentPages.present {count : ℕ} (pages : PresentPages tables hostMem count) {index : ℕ}
    (inside : index < count) : tables.Present (hostMem / pageSize + index) := by
  have present := pages index inside
  rwa [regionSize, Nat.mul_comm 512 pageSize, ← Nat.div_div_eq_div_mul, hostMem_page] at present

/-- A run of the loop that maps all its pages is one of the loop over the table of pages. -/
theorem mmapRegionLoop_done {count : ℕ} {mem mem' : PteMemory} {entries : List SlotMapCtx}
    (pages : PresentPages tables hostMem count)
    (mapped : tables.mmapRegionLoop outcome target targetAddr hostMem count 0 mem =
      (true, entries, mem')) :
    ∃ pageEntries host',
      Acai.mmapRegionLoop (regionOutcome outcome hostMem (tables.view mem)) (wrapped target)
          targetAddr hostMem count 0 (tables.view mem) = (true, pageEntries, host') ∧
        entries = pageEntries.map tables.place ∧ mem' = tables.overlay mem host' := by
  have present : ∀ page, 0 ≤ page → page < 0 + count → tables.Present (hostMem / pageSize + page) :=
    fun page _ inside => pages.present (by omega)
  have simulated := @mmapRegionLoop_overlay tables target targetAddr hostMem outcome
    (regionOutcome outcome hostMem (tables.view mem)) count 0 mem (tables.view mem)
    (fun _ _ _ => rfl) present
  rw [overlay_view, mapped] at simulated
  rcases loop : Acai.mmapRegionLoop (regionOutcome outcome hostMem (tables.view mem))
    (wrapped target) targetAddr hostMem count 0 (tables.view mem) with ⟨done, pageEntries, host'⟩
  rw [loop] at simulated
  cases simulated
  exact ⟨pageEntries, host', rfl, rfl, rfl⟩

/-- The entry of a page that the loop has mapped. -/
theorem overlay_loop_slot {count : ℕ} {mem : PteMemory} {pageEntries : List MemoryMapCtx}
    {pages : RegionOutcome} {host' : PageTable} (present : PresentPages tables hostMem count)
    (loop : Acai.mmapRegionLoop pages (wrapped target) targetAddr hostMem count 0
      (tables.view mem) = (true, pageEntries, host')) {index : ℕ} (inside : index < count) :
    tables.overlay mem host' (tables.slot (hostMem + index * pageSize)) =
      pteditSetPfn (mem (tables.slot (hostMem + index * pageSize)))
        (pteditGetPfn (target (targetPageAddr targetAddr index / pageSize))) := by
  have redirected := mmapRegionLoop_inside loop (Nat.zero_le index) (by omega)
  rw [slot_eq_pageSlot, hostMem_page, overlay_pageSlot (present.present inside), redirected,
    redirectedPte, hostMem_page, target_targetPageAddr target]
  rfl

theorem redirects_of_loop {count : ℕ} {mem : PteMemory} {pageEntries : List MemoryMapCtx}
    {pages : RegionOutcome} {host' : PageTable} (present : PresentPages tables hostMem count)
    (loop : Acai.mmapRegionLoop pages (wrapped target) targetAddr hostMem count 0
      (tables.view mem) = (true, pageEntries, host')) {index : ℕ} (inside : index < count) :
    Redirects tables target targetAddr hostMem index mem (tables.overlay mem host') := by
  have entry := overlay_loop_slot present loop inside
  constructor
  · rw [entry, pteditGetPfn_setPfn_getPfn]
  · rw [entry, pteditSetPfn_getPfn_flags]

theorem overlay_loop_outside {count : ℕ} {mem : PteMemory} {pageEntries : List MemoryMapCtx}
    {pages : RegionOutcome} {host' : PageTable}
    (loop : Acai.mmapRegionLoop pages (wrapped target) targetAddr hostMem count 0
      (tables.view mem) = (true, pageEntries, host')) {slot : PteSlot}
    (outside : ∀ index < count, tables.slot (hostMem + index * pageSize) ≠ slot) :
    tables.overlay mem host' slot = mem slot := by
  by_cases page : ∃ page, tables.Present page ∧ tables.pageSlot page = slot
  · rcases page with ⟨page, present, rfl⟩
    have kept : host' page = tables.view mem page := by
      have unchanged := @mmapRegionLoop_outside pages (wrapped target) targetAddr hostMem count 0
        page ?_ (tables.view mem)
      · rwa [loop] at unchanged
      · by_contra inside
        apply outside (page - hostMem / pageSize) (by omega)
        rw [slot_eq_pageSlot, hostMem_page]
        congr 1
        omega
    rw [overlay_pageSlot present, kept, view]
  · apply overlay_of_notPage
    intro other present same
    exact page ⟨other, present, same⟩

/-- Writing back the entries of a mapped region gives the memory from before. -/
theorem foldl_fhMemoryUnmap_loop {count : ℕ} {mem : PteMemory} {pageEntries : List MemoryMapCtx}
    {pages : RegionOutcome} {host' : PageTable} (notNull : hostMem ≠ 0)
    (present : PresentPages tables hostMem count)
    (loop : Acai.mmapRegionLoop pages (wrapped target) targetAddr hostMem count 0
      (tables.view mem) = (true, pageEntries, host')) :
    (pageEntries.map tables.place).foldl fhMemoryUnmap (tables.overlay mem host') = mem := by
  rw [foldl_fhMemoryUnmap_overlay, foldl_fhMemoryUnmap_mmapRegionLoop notNull loop, overlay_view]
  intro entry entry_mem
  rcases mmapRegionLoop_entries notNull loop entry_mem with ⟨-, after, before⟩
  have inside := present.present (show entry.hostPtEntry - hostMem / pageSize < count by omega)
  rwa [Nat.add_sub_cancel' (by omega)] at inside

/-- Mapping a region redirects the entries of its pages and no others, and unmapping it gives all
entries back and clears the region. -/
theorem fhMmapRegion_unmap_inverse (tables : HostTables) (outcome : ResolveOutcome)
    (target : PageTable) (targetAddr len hostMem : ℕ) (region : SlotRegionCtx) (mem : PteMemory)
    (notNull : hostMem ≠ 0) (present : PresentPages tables hostMem (len / pageSize))
    {region' : SlotRegionCtx} {mem' : PteMemory}
    (mapped : tables.fhMmapRegion outcome target targetAddr len hostMem region mem =
      (0, region', mem')) :
    (∀ index < len / pageSize, Redirects tables target targetAddr hostMem index mem mem') ∧
      (∀ slot, (∀ index < len / pageSize, tables.slot (hostMem + index * pageSize) ≠ slot) →
        mem' slot = mem slot) ∧
      fhUnmmapRegion region' mem' = (.zero, mem) ∧
      ∀ later, fhUnmmapRegion .zero later = (.zero, later) := by
  simp only [fhMmapRegion] at mapped
  split at mapped
  · cases mapped
  split at mapped
  · rename_i entries mem'' done
    cases mapped
    rcases mmapRegionLoop_done present done with ⟨pageEntries, host', loop, rfl, rfl⟩
    refine ⟨fun index inside => redirects_of_loop present loop inside,
      fun slot outside => overlay_loop_outside loop outside, ?_, fun _ => rfl⟩
    have length : (pageEntries.map tables.place).length ≤ len / pageSize := by
      rw [List.length_map, length_mmapRegionLoop loop]
    simp only [fhUnmmapRegion]
    rw [List.take_of_length_le length, foldl_fhMemoryUnmap_loop notNull present loop]
  · cases mapped

/-- Page tables in consecutive frames. -/
def inARow : HostTables where
  pmdPfn region := region + 1
  HasTable _ := True
  distinct _ _ same := Nat.succ_injective same

/-- A call in which `ptedit_resolve` reads what the entries hold. -/
def readsEntries : ResolveOutcome := ⟨true, fun _ pte => pte⟩

/-- Two pages with a page table each: the last page of one region and the first of the next. -/
theorem fhMmapRegion_unmap_inverse_twoTables :
    ∃ region' mem', inARow.fhMmapRegion readsEntries (fun _ => 0x5067) 0x1234 0x2000 0x1ff000 .zero
        (fun _ => 0x9067) = (0, region', mem') ∧
      fhUnmmapRegion region' mem' = (.zero, fun _ => 0x9067) := by
  have mapped : (inARow.fhMmapRegion readsEntries (fun _ => 0x5067) 0x1234 0x2000 0x1ff000 .zero
      (fun _ => 0x9067)).1 = 0 := by decide +kernel
  exact ⟨_, _, Prod.ext mapped rfl, (fhMmapRegion_unmap_inverse inARow readsEntries
    (fun _ => 0x5067) 0x1234 0x2000 0x1ff000 .zero (fun _ => 0x9067) (by decide)
    (fun _ _ => trivial) (Prod.ext mapped rfl)).2.2.1⟩

/-! ## A map that fails half-way -/

/-- The map of the page at index `failing` fails after those of the pages before it. -/
structure FailsAt (tables : HostTables) (outcome : ResolveOutcome) (target : PageTable)
    (targetAddr hostMem failing : ℕ) (mem : PteMemory) : Prop where
  calloc : outcome.calloc = true
  mapped : (tables.mmapRegionLoop outcome target targetAddr hostMem failing 0 mem).1 = true
  fails : tables.fhMemoryMap (outcome.resolved failing) target
    (targetPageAddr targetAddr failing) (hostMem + failing * pageSize)
    (tables.mmapRegionLoop outcome target targetAddr hostMem failing 0 mem).2.2 = none

theorem mmapRegionLoop_fails {failing index count : ℕ} {mem : PteMemory}
    (mapped : (tables.mmapRegionLoop outcome target targetAddr hostMem failing index mem).1 = true)
    (fails : tables.fhMemoryMap (outcome.resolved (index + failing)) target
      (targetPageAddr targetAddr (index + failing)) (hostMem + (index + failing) * pageSize)
      (tables.mmapRegionLoop outcome target targetAddr hostMem failing index mem).2.2 = none)
    (inside : failing < count) :
    (tables.mmapRegionLoop outcome target targetAddr hostMem count index mem).1 = false ∧
      (tables.mmapRegionLoop outcome target targetAddr hostMem count index mem).2.2 =
        (tables.mmapRegionLoop outcome target targetAddr hostMem failing index mem).2.2 := by
  induction failing generalizing index count mem with
  | zero =>
      rcases Nat.exists_eq_add_one_of_ne_zero (show count ≠ 0 by omega) with ⟨count, rfl⟩
      rw [Nat.add_zero, mmapRegionLoop.eq_1] at fails
      rw [mmapRegionLoop.eq_2, fails, mmapRegionLoop.eq_1]
      exact ⟨rfl, rfl⟩
  | succ failing ih =>
      rcases Nat.exists_eq_add_one_of_ne_zero (show count ≠ 0 by omega) with ⟨count, rfl⟩
      rw [mmapRegionLoop.eq_2] at mapped fails
      rw [mmapRegionLoop.eq_2, mmapRegionLoop.eq_2]
      cases first : tables.fhMemoryMap (outcome.resolved index) target
          (targetPageAddr targetAddr index) (hostMem + index * pageSize) mem with
      | none =>
          rw [first] at mapped
          cases mapped
      | some entry =>
          rw [first] at mapped fails
          rw [show index + (failing + 1) = index + 1 + failing by omega] at fails
          exact ih mapped fails (by omega)

/-- After a failed map the memory is as before only if the pages before the failing one had the
frames of their target pages already. -/
theorem overlay_loop_eq_iff {count : ℕ} {mem : PteMemory} {pageEntries : List MemoryMapCtx}
    {pages : RegionOutcome} {host' : PageTable} (present : PresentPages tables hostMem count)
    (loop : Acai.mmapRegionLoop pages (wrapped target) targetAddr hostMem count 0
      (tables.view mem) = (true, pageEntries, host')) :
    tables.overlay mem host' = mem ↔ ∀ index < count,
      pteditGetPfn (target (targetPageAddr targetAddr index / pageSize)) =
        pteditGetPfn (mem (tables.slot (hostMem + index * pageSize))) := by
  constructor
  · intro restored index inside
    have entry := overlay_loop_slot present loop inside
    rw [restored] at entry
    exact (pteditSetPfn_getPfn_eq_iff _ _).mp entry.symm
  · intro frames
    funext slot
    by_cases ofPage : ∃ index < count, tables.slot (hostMem + index * pageSize) = slot
    · rcases ofPage with ⟨index, inside, rfl⟩
      rw [overlay_loop_slot present loop inside]
      exact (pteditSetPfn_getPfn_eq_iff _ _).mpr (frames index inside)
    · exact overlay_loop_outside loop fun index inside same => ofPage ⟨index, inside, same⟩

/-- A region whose map fails leaves everything as it was exactly if the pages before the failing
one had the frames of their target pages already. -/
theorem fhMmapRegion_failed_iff (tables : HostTables) (outcome : ResolveOutcome)
    (target : PageTable) (targetAddr len hostMem failing : ℕ) (region : SlotRegionCtx)
    (mem : PteMemory) (inside : failing < len / pageSize)
    (present : PresentPages tables hostMem failing)
    (failsAt : FailsAt tables outcome target targetAddr hostMem failing mem) :
    ∃ region' mem', tables.fhMmapRegion outcome target targetAddr len hostMem region mem =
        (-1, region', mem') ∧
      (mem' = mem ∧ region' = region ↔ ∀ index < failing,
        pteditGetPfn (target (targetPageAddr targetAddr index / pageSize)) =
          pteditGetPfn (mem (tables.slot (hostMem + index * pageSize)))) := by
  rcases before : tables.mmapRegionLoop outcome target targetAddr hostMem failing 0 mem with
    ⟨done, entries, mem'⟩
  have done_eq := failsAt.mapped
  rw [before] at done_eq
  subst done_eq
  have fails := failsAt.fails
  rw [before] at fails
  rcases whole : tables.mmapRegionLoop outcome target targetAddr hostMem (len / pageSize) 0 mem
    with ⟨done, allEntries, mem''⟩
  have failed := @mmapRegionLoop_fails tables target targetAddr hostMem outcome failing 0
    (len / pageSize) mem (by rw [before]) (by rw [before, Nat.zero_add]; exact fails) inside
  rw [before, whole] at failed
  obtain ⟨rfl, rfl⟩ := failed
  refine ⟨region, mem'', ?_, ?_⟩
  · simp only [fhMmapRegion, failsAt.calloc, whole, Bool.not_true, Bool.false_eq_true, ↓reduceIte]
  · rcases mmapRegionLoop_done present before with ⟨pageEntries, host', loop, rfl, rfl⟩
    rw [overlay_loop_eq_iff present loop]
    exact and_iff_left rfl

/-- A call in which `ptedit_resolve` finds no entry for the page at index 1, as for a huge page. -/
def withoutSecond : ResolveOutcome := ⟨true, fun index pte => if index = 1 then 0 else pte⟩

theorem withoutSecond_failsAt :
    FailsAt inARow withoutSecond (fun _ => 0x5067) 0x1234 0x1ff000 1 (fun _ => 0x9067) where
  calloc := rfl
  mapped := by decide +kernel
  fails := by
    rw [fhMemoryMap, if_pos]
    decide +kernel

theorem fhMmapRegion_failed_second :
    ∃ region' mem', inARow.fhMmapRegion withoutSecond (fun _ => 0x5067) 0x1234 0x2000 0x1ff000
        .zero (fun _ => 0x9067) = (-1, region', mem') ∧
      (mem' = (fun _ => 0x9067) ∧ region' = .zero ↔ ∀ index < 1,
        pteditGetPfn ((fun _ => 0x5067 : PageTable) (targetPageAddr 0x1234 index / pageSize)) =
          pteditGetPfn ((fun _ => 0x9067 : PteMemory)
            (inARow.slot (0x1ff000 + index * pageSize)))) :=
  fhMmapRegion_failed_iff inARow withoutSecond (fun _ => 0x5067) 0x1234 0x2000 0x1ff000 1 .zero
    (fun _ => 0x9067) (by decide) (fun _ _ => trivial) withoutSecond_failsAt

/-- The page that was mapped before the failure keeps the frame of its target page. -/
theorem fhMmapRegion_failure_keeps_redirected :
    ¬∀ (tables : HostTables) (outcome : ResolveOutcome) (target : PageTable)
      (targetAddr len hostMem failing : ℕ) (region : SlotRegionCtx) (mem : PteMemory),
      failing < len / pageSize → PresentPages tables hostMem failing →
      FailsAt tables outcome target targetAddr hostMem failing mem →
        (tables.fhMmapRegion outcome target targetAddr len hostMem region mem).2.2 = mem ∧
          (tables.fhMmapRegion outcome target targetAddr len hostMem region mem).2.1 = region := by
  intro claim
  have restored := (claim inARow withoutSecond (fun _ => 0x5067) 0x1234 0x2000 0x1ff000 1 .zero
    (fun _ => 0x9067) (by decide) (fun _ _ => trivial) withoutSecond_failsAt).1
  have entry := congrFun restored ⟨1, 511⟩
  revert entry
  decide +kernel

end HostTables

end Acai
