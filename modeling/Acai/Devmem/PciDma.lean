import Acai.Devmem.Delegate
import Acai.Guest.PinPages

/-!
# Delegation of a pinned buffer

`simulate_pci_dma` builds a scatterlist from the records of a pinned buffer and
calls `dma_map_sg`, only to reach the probe that delegates the list. This file
composes the pinning, the scatterlist and the walk of the probe: exactly the pages
of the buffer become accessible to the device. The gaps of the walk do not show
here, because every entry lies inside one page and the whole list is mapped.
-/

namespace Acai

/-- The allocations of one call of `simulate_pci_dma`. -/
structure SimulateKernel where
  sgtAlloc : Bool
  tableAlloc : Bool
  dummyAlloc : Bool

/-- `dma_map_sg`, as far as the probe sees it. -/
def dmaMapSg (params : DevmemParams) (sgl : List SgEntry) (nents : ℤ) :
    Option (List MonitorCall) :=
  if params.kprobe then preDmaMapSgAttrs params sgl nents else some []

def simulatedSgl (pinned : PinPages) : List SgEntry :=
  pinned.pageChunks.map fun chunk => sgSetPage (Page.ofPfn chunk.addr) chunk.nbytes chunk.offset

/-- `simulate_pci_dma`: its result and the calls of the probe, or `none` when it does not
return. -/
def simulatePciDma (kernel : SimulateKernel) (params : DevmemParams) (pinned : PinPages) :
    Option (ℤ × List MonitorCall) :=
  if !kernel.sgtAlloc then some (-Errno.ENOMEM.code, [])
  else if !kernel.tableAlloc then some (-Errno.ENOMEM.code, [])
  else if !kernel.dummyAlloc then some (-Errno.ENOMEM.code, [])
  else
    (dmaMapSg params (simulatedSgl pinned) pinned.pagesNr).map fun calls => (0, calls)

/-- The granules that the monitor is asked to delegate. -/
def delegated (calls : List MonitorCall) : Set ℕ :=
  { granule | ∃ addr numGranules,
      MonitorCall.rsiSetAddrRangeDevMem addr numGranules true ∈ calls ∧
        ∃ index < numGranules, granule = granuleAt addr index }

/-- The physical pages that hold the bytes of a buffer whose pages are `pages`. -/
def bufferPages (pages : List Page) (buf count : ℕ) : Set ℕ :=
  { granule | ∃ index < count, ∃ page,
      pages[(offsetInPage buf + index) / pageSize]? = some page ∧ granule = page.toPhys }

theorem delegated_flatMap {params : DevmemParams} (realm : params.realm = true)
    (enabled : params.noDelegate = false) {calls : List RangeCall}
    (directions : ∀ call ∈ calls, call.doDelegate = true) :
    delegated (calls.flatMap (devmemDelegateMemRangeDevice params)) = granules calls := by
  have passedOn : ∀ call addr numGranules,
      MonitorCall.rsiSetAddrRangeDevMem addr numGranules true ∈
          devmemDelegateMemRangeDevice params call ↔
        addr = call.addr ∧ numGranules = call.numGranules ∧ call.doDelegate = true := by
    intro call addr numGranules
    simp only [devmemDelegateMemRangeDevice, enabled, realm, Bool.false_eq_true, ↓reduceIte,
      List.mem_cons, MonitorCall.rsiSetAddrRangeDevMem.injEq]
    cases params.testengine <;> simp [eq_comm (a := true)]
  ext granule
  simp only [delegated, granules, Set.mem_ofPred_eq, List.mem_flatMap, passedOn]
  constructor
  · rintro ⟨addr, numGranules, ⟨call, call_mem, rfl, rfl, -⟩, inside⟩
    exact ⟨call, call_mem, inside⟩
  · rintro ⟨call, call_mem, inside⟩
    exact ⟨_, _, ⟨call, call_mem, rfl, rfl, directions call call_mem⟩, inside⟩

theorem preDmaMapSgAttrs_delegated {params : DevmemParams} {sgl : List SgEntry}
    (short : ∀ sg ∈ sgl, sg.length.toNat ≤ maxLength) (nents : ℤ)
    (realm : params.realm = true) (enabled : params.noDelegate = false) :
    ∃ calls, preDmaMapSgAttrs params sgl nents = some calls ∧ delegated calls = walked sgl := by
  rcases devmemDelegateMemRangeSgl_granules short nents true
    with ⟨calls, returns, directions, covers⟩
  refine ⟨calls.flatMap (devmemDelegateMemRangeDevice params), ?_, ?_⟩
  · simp [preDmaMapSgAttrs, returns]
  · rw [delegated_flatMap realm enabled directions, covers]

section

variable {kernel : PinKernel} {buf count : ℕ} {pinned : PinPages}

theorem toNat_nbytes (result : Pinned kernel buf count pinned) (inSpace : buf < 2 ^ 64)
    (pos : 0 < count) (small : count < 2 ^ 32) {chunk : PageChunk}
    (chunk_mem : chunk ∈ pinned.pageChunks) :
    (UInt32.ofNat chunk.nbytes).toNat = chunk.nbytes := by
  have inPage := result.chunk_inPage inSpace pos small chunk_mem
  apply UInt32.toNat_ofNat_of_lt'
  simp only [UInt32.size, pageSize] at inPage ⊢
  omega

theorem mem_walked_simulatedSgl (result : Pinned kernel buf count pinned)
    (inSpace : buf < 2 ^ 64) (pos : 0 < count) (small : count < 2 ^ 32) {granule : ℕ} :
    granule ∈ walked (simulatedSgl pinned) ↔ ∃ page ∈ pinned.pages, granule = page.toPhys := by
  have onePage : ∀ chunk ∈ pinned.pageChunks,
      pagesCovered (UInt32.ofNat chunk.nbytes).toNat = 1 := by
    intro chunk chunk_mem
    have inPage := result.chunk_inPage inSpace pos small chunk_mem
    rw [toNat_nbytes result inSpace pos small chunk_mem]
    simp only [pagesCovered, pageSize] at inPage ⊢
    omega
  have firstPage : granule ∈ walked (simulatedSgl pinned) ↔
      ∃ chunk ∈ pinned.pageChunks, granule = (Page.ofPfn chunk.addr).toPhys := by
    simp only [walked, simulatedSgl, Set.mem_ofPred_eq, List.mem_map, exists_exists_and_eq_and,
      sgSetPage]
    constructor
    · rintro ⟨chunk, chunk_mem, index, index_lt, rfl⟩
      rw [onePage chunk chunk_mem] at index_lt
      obtain rfl : index = 0 := by omega
      exact ⟨chunk, chunk_mem, granuleAt_zero _⟩
    · rintro ⟨chunk, chunk_mem, rfl⟩
      exact ⟨chunk, chunk_mem, 0, by rw [onePage chunk chunk_mem]; omega,
        (granuleAt_zero _).symm⟩
  have records : (∃ addr ∈ pinned.pageChunks.map PageChunk.addr,
      granule = (Page.ofPfn addr).toPhys) ↔ ∃ page ∈ pinned.pages, granule = page.toPhys := by
    rw [result.addr_eq]
    simp
  rw [firstPage, ← records]
  simp

theorem mem_bufferPages (result : Pinned kernel buf count pinned)
    (inSpace : buf < 2 ^ 64) (pos : 0 < count) (small : count < 2 ^ 32) {granule : ℕ} :
    granule ∈ bufferPages pinned.pages buf count ↔
      ∃ page ∈ pinned.pages, granule = page.toPhys := by
  constructor
  · rintro ⟨index, -, page, page_eq, rfl⟩
    exact ⟨page, List.mem_of_getElem? page_eq, rfl⟩
  · rintro ⟨page, page_mem, rfl⟩
    rcases List.getElem_of_mem page_mem with ⟨position, position_lt, page_eq⟩
    have length := result.length
    rw [fhGetPageCount, pageCount_eq inSpace (by omega)] at length
    have inBuffer : position * pageSize < offsetInPage buf + count :=
      lt_pagesCovered_iff.mp (length ▸ position_lt)
    have offset_lt : offsetInPage buf < pageSize := Nat.mod_lt _ (by decide)
    -- the first byte of the buffer in the page
    refine ⟨position * pageSize - offsetInPage buf, by omega, page, ?_, rfl⟩
    have place : (offsetInPage buf + (position * pageSize - offsetInPage buf)) / pageSize =
        position := by
      simp only [pageSize] at offset_lt ⊢
      omega
    rw [place, List.getElem?_eq_getElem position_lt, page_eq]

theorem length_le_of_mem_simulatedSgl (result : Pinned kernel buf count pinned)
    (inSpace : buf < 2 ^ 64) (pos : 0 < count) (small : count < 2 ^ 32) :
    ∀ sg ∈ simulatedSgl pinned, sg.length.toNat ≤ maxLength := by
  intro sg sg_mem
  rcases List.mem_map.mp sg_mem with ⟨chunk, chunk_mem, rfl⟩
  have inPage := result.chunk_inPage inSpace pos small chunk_mem
  simp only [sgSetPage]
  rw [toNat_nbytes result inSpace pos small chunk_mem]
  simp only [maxLength, pageSize] at inPage ⊢
  omega

end

/-- All allocations of the call succeed. -/
def SimulateKernel.Allocates (kernel : SimulateKernel) : Prop :=
  kernel.sgtAlloc = true ∧ kernel.tableAlloc = true ∧ kernel.dummyAlloc = true

theorem simulatePciDma_of_allocates {kernel : SimulateKernel} (allocates : kernel.Allocates)
    (params : DevmemParams) (pinned : PinPages) :
    simulatePciDma kernel params pinned =
      (dmaMapSg params (simulatedSgl pinned) pinned.pagesNr).map fun calls => (0, calls) := by
  rcases allocates with ⟨sgt, table, dummy⟩
  simp [simulatePciDma, sgt, table, dummy]

theorem simulatePciDma_of_not_allocates {kernel : SimulateKernel}
    (fails : ¬kernel.Allocates) (params : DevmemParams) (pinned : PinPages) :
    simulatePciDma kernel params pinned = some (-Errno.ENOMEM.code, []) := by
  simp only [simulatePciDma]
  split
  · rfl
  split
  · rfl
  split
  · rfl
  rename_i sgt table dummy
  exact absurd ⟨by simpa using sgt, by simpa using table, by simpa using dummy⟩ fails

/--
For every user buffer within the limit of a read or write: after `fh_pin_pages` has
succeeded, `simulate_pci_dma` returns. It succeeds if and only if its allocations do,
and when it succeeds in realm world the granules delegated to the device are exactly
the physical pages that hold the bytes of the buffer.
-/
theorem simulatePciDma_delegates_buffer (pinKernel : PinKernel) (kernel : SimulateKernel)
    (params : DevmemParams) (buf count : ℕ) (pinned : PinPages)
    (inSpace : buf < 2 ^ 64) (pos : 1 ≤ count) (capped : count ≤ 0x7ffff000)
    (realm : params.realm = true) (probed : params.kprobe = true)
    (enabled : params.noDelegate = false)
    (pinning : fhPinPages pinKernel buf count = .ok pinned) :
    pinKernel.getUserPagesFast = .ok pinned.pages ∧
      ∃ ret calls, simulatePciDma kernel params pinned = some (ret, calls) ∧
        (ret = 0 ↔ kernel.Allocates) ∧
        (ret = 0 → delegated calls = bufferPages pinned.pages buf count) ∧
        (ret ≠ 0 → delegated calls = ∅) := by
  have result := fhPinPages_ok pinning
  refine ⟨result.pages, ?_⟩
  by_cases allocates : kernel.Allocates
  · rcases preDmaMapSgAttrs_delegated
      (length_le_of_mem_simulatedSgl result inSpace pos (by omega)) pinned.pagesNr realm enabled
      with ⟨calls, returns, covers⟩
    refine ⟨0, calls, ?_, iff_of_true rfl allocates, fun _ => ?_, fun failed => absurd rfl failed⟩
    · simp [simulatePciDma_of_allocates allocates, dmaMapSg, probed, returns]
    · ext granule
      rw [covers, mem_walked_simulatedSgl result inSpace pos (by omega),
        mem_bufferPages result inSpace pos (by omega)]
  · have failing : -Errno.ENOMEM.code ≠ 0 := by decide
    refine ⟨_, _, simulatePciDma_of_not_allocates allocates params pinned,
      iff_of_false failing allocates, fun success => absurd success failing, fun _ => ?_⟩
    simp [delegated]

theorem simulatePciDma_delegates_twoPages :
    ∃ calls, simulatePciDma ⟨true, true, true⟩ ⟨true, false, true, false⟩ pinnedTwo =
        some (0, calls) ∧
      delegated calls = bufferPages pinnedTwo.pages 0x1800 4096 := by
  rcases (simulatePciDma_delegates_buffer .pinsTwo ⟨true, true, true⟩ ⟨true, false, true, false⟩
    0x1800 4096 pinnedTwo (by decide) (by decide) (by decide) rfl rfl rfl rfl).2
    with ⟨ret, calls, returns, succeeds, covers, -⟩
  have success : ret = 0 := succeeds.mpr ⟨rfl, rfl, rfl⟩
  subst success
  exact ⟨calls, returns, covers rfl⟩

end Acai
