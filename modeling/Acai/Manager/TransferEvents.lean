import Acai.Lib.Runs
import Acai.Manager.Reply

/-!
# What a request does to the transfer buffer

The handlers of `on_fault` are functions of the manager and the page, so what they
do to the transfer buffer on the way (the allocation, the copies, the records that
are read, the ioctl and the release) does not show in them. It is listed here, with
the branches of the source (`TransferEvent`).

Two facts tie the lists to the handlers. Every event has an effect on the buffer
(`TransferEvent.effect`), and the effects of the events of a request, one after
another, leave the buffer that the handler leaves and hand over the chunk lists
that its device calls carry (`performs_handleAction`). And the bytes that the
events read are the only ones in the buffer that the reply depends on
(`handleAction_withBuffer`).
-/

namespace Acai

/-- What a request does to the transfer buffer. -/
inductive TransferEvent where
  | malloc (infoCtx size : ℕ) (succeeded : Bool)
  | memcpy (offset count : ℕ)
  /-- The chunk record at `index` is read and translated. -/
  | record (index : ℕ)
  /-- The first `count` records are handed to `FH_HOST_IOCTL_DMA`. -/
  | ioctlDma (count : ℕ)
  | free
  deriving DecidableEq

/-! ## The events of a request -/

def transferHandshakeEvents (outcome : FaultOutcome) (page : ByteMem) : List TransferEvent :=
  let offered := page.set ActionTransferEscapeData.chunkSize transferMax
  [.malloc (offered.get ActionTransferEscapeData.infoCtx)
    (offered.get ActionTransferEscapeData.totalSize) outcome.malloc.isSome]

def transferChunkEvents (manager : Manager) (page : ByteMem) : List TransferEvent :=
  let state := manager.transfer
  let transfer := chunkTransfer page
  if state.size < u64 (state.chunk + transfer) then [] else [.memcpy state.chunk transfer]

def doActionTransferEscapeDataEvents (outcome : FaultOutcome) (manager : Manager)
    (page : ByteMem) : List TransferEvent :=
  let status := page.getInt ActionTransferEscapeData.status
  if status = TransferStatus.transferSize.code then transferHandshakeEvents outcome page
  else if status = TransferStatus.transferData.code then transferChunkEvents manager page
  else []

def translateChunksEvents (ctx : CtxStruct) : ℕ → ℕ → ByteMem → List TransferEvent
  | 0, _, _ => []
  | count + 1, index, chunks =>
      let vaddr := getAddrMapVaddrVerify ctx (chunks.get (chunkAddr index))
      .record index ::
        if vaddr = 0 then []
        else translateChunksEvents ctx count (index + 1)
          (chunks.set (chunkAddr index) vaddr.toNat)

def doDmaEvents (manager : Manager) (page : ByteMem) : List TransferEvent :=
  let pagesNr := page.get ActionDma.pagesNr
  let chunks := manager.transfer.ptr.getD ByteMem.zero
  if manager.transfer.infoCtx ≠ FhAction.dma.code then []
  -- the read of the first record is the one that ends the process
  else if pagesNr ≠ 0 ∧ manager.transfer.ptr = none then [.record 0]
  else
    translateChunksEvents manager.ctx pagesNr 0 chunks ++
      if (translateChunks manager.ctx pagesNr 0 chunks).isSome then [.ioctlDma pagesNr, .free]
      else [.free]

def handleUnmapEvents (outcome : FaultOutcome) (manager : Manager) (page : ByteMem) :
    List TransferEvent :=
  if outcome.malloc = none ∨ ¬UnmapListed page then []
  else doDmaEvents manager (setRetAndErrNo page outcome.unmmapRet.toInt outcome.errno.toInt)

def handleActionEvents (outcome : FaultOutcome) (manager : Manager) (page : ByteMem) :
    List TransferEvent :=
  match FhAction.ofCode (page.get FaultData.action) with
  | some .unmap => handleUnmapEvents outcome manager page
  | some .dma => doDmaEvents manager page
  | some .transferEscapeData => doActionTransferEscapeDataEvents outcome manager page
  | _ => []

/-! ## What the events do -/

/-- The transfer buffer, and the chunk lists that were handed to the driver. -/
structure TransferBuffer where
  ptr : Option ByteMem
  handed : List (List PageChunk)

/-- The effect of an event in a fault with this outcome and page. -/
def TransferEvent.effect (outcome : FaultOutcome) (ctx : CtxStruct) (page : ByteMem)
    (buffer : TransferBuffer) : TransferEvent → TransferBuffer
  | .malloc _ _ _ => { buffer with ptr := outcome.malloc }
  | .memcpy offset count =>
      { buffer with
        ptr := buffer.ptr.map fun mem =>
          mem.writeBytes offset (page.readBytes ActionTransferEscapeData.chunkData count) }
  | .record index =>
      { buffer with
        ptr := buffer.ptr.map fun mem =>
          let vaddr := getAddrMapVaddrVerify ctx (mem.get ⟨PageChunk.size * index, 8⟩)
          -- a record without an address is left as it is
          if vaddr = 0 then mem else mem.set ⟨PageChunk.size * index, 8⟩ vaddr.toNat }
  | .ioctlDma count =>
      { buffer with
        handed := buffer.handed ++
          [(List.range count).map fun index =>
            PageChunk.ofMem (buffer.ptr.getD ByteMem.zero) (PageChunk.size * index)] }
  | .free => { buffer with ptr := none }

/-- The bytes of the buffer that an event reads. -/
def TransferEvent.loads : TransferEvent → Set ℕ
  | .record index => Set.Ico (PageChunk.size * index) (PageChunk.size * index + 8)
  | .ioctlDma count => Set.Ico 0 (PageChunk.size * count)
  | _ => ∅

/-- The chunk list that a device call hands over, for a DMA. -/
def HostCall.dmaRecords : HostCall → Option (List PageChunk)
  | .iocDma _ dma _ => some dma.chunks
  | _ => none

/-- The buffer and the handed lists behind the events of a fault. -/
def Manager.bufferAfter (outcome : FaultOutcome) (manager : Manager) (page : ByteMem)
    (events : List TransferEvent) : TransferBuffer :=
  Runs.after (TransferEvent.effect outcome manager.ctx page) ⟨manager.transfer.ptr, []⟩ events

/-! ## The records that a DMA visits -/

/-- The translation loop visits a record when all records before it have an address. -/
theorem mem_translateChunksEvents_iff (ctx : CtxStruct) (count index : ℕ) (chunks : ByteMem)
    (event : TransferEvent) :
    event ∈ translateChunksEvents ctx count index chunks ↔
      ∃ step < count, event = .record (index + step) ∧ ∀ earlier < step,
        getAddrMapVaddrVerify ctx (chunks.get (chunkAddr (index + earlier))) ≠ 0 := by
  induction count generalizing index chunks with
  | zero => simp [translateChunksEvents]
  | succ count ih =>
      simp only [translateChunksEvents, List.mem_cons]
      split
      · rename_i unmapped
        simp only [List.not_mem_nil, or_false]
        constructor
        · rintro rfl
          exact ⟨0, by omega, rfl, by simp⟩
        · rintro ⟨step, -, rfl, mapped⟩
          rcases step with _ | step
          · rfl
          · exact absurd unmapped (mapped 0 (by omega))
      · rename_i mapped
        rw [ih]
        constructor
        · rintro (rfl | ⟨step, step_lt, rfl, rest⟩)
          · exact ⟨0, by omega, rfl, by simp⟩
          · refine ⟨step + 1, by omega, by congr 1; omega, ?_⟩
            intro earlier earlier_lt
            rcases earlier with _ | earlier
            · exact mapped
            · have later := rest earlier (by omega)
              rw [ByteMem.get_set_of_disjoint (chunkAddr_disjoint (by omega))] at later
              rwa [show index + (earlier + 1) = index + 1 + earlier by omega]
        · rintro ⟨step, step_lt, rfl, all⟩
          rcases step with _ | step
          · exact Or.inl rfl
          · refine Or.inr ⟨step, by omega, by congr 1; omega, ?_⟩
            intro earlier earlier_lt
            rw [ByteMem.get_set_of_disjoint (chunkAddr_disjoint (by omega))]
            have here := all (earlier + 1) (by omega)
            rwa [show index + (earlier + 1) = index + 1 + earlier by omega] at here

theorem translateChunksEvents_records (ctx : CtxStruct) (count index : ℕ) (chunks : ByteMem) :
    ∀ event ∈ translateChunksEvents ctx count index chunks, ∃ index, event = .record index := by
  intro event event_mem
  rcases (mem_translateChunksEvents_iff ctx count index chunks event).mp event_mem with
    ⟨step, -, rfl, -⟩
  exact ⟨_, rfl⟩

/-- The records leave the lists that were handed over. -/
theorem handed_records {outcome : FaultOutcome} {ctx : CtxStruct} {page : ByteMem}
    {events : List TransferEvent} (records : ∀ event ∈ events, ∃ index, event = .record index)
    (buffer : TransferBuffer) :
    (Runs.after (TransferEvent.effect outcome ctx page) buffer events).handed = buffer.handed := by
  induction events generalizing buffer with
  | nil => rfl
  | cons event events ih =>
      rcases records event List.mem_cons_self with ⟨index, rfl⟩
      exact ih (fun event event_mem => records event (List.mem_cons_of_mem _ event_mem)) _

/-- A loop that gets through has translated the records that it visits. -/
theorem after_translateChunksEvents (outcome : FaultOutcome) (ctx : CtxStruct) (page : ByteMem)
    (handed : List (List PageChunk)) {count index : ℕ} {mem chunks : ByteMem}
    (translates : translateChunks ctx count index mem = some chunks) :
    Runs.after (TransferEvent.effect outcome ctx page) ⟨some mem, handed⟩
      (translateChunksEvents ctx count index mem) = ⟨some chunks, handed⟩ := by
  induction count generalizing index mem with
  | zero =>
      rw [translateChunks, Option.some_inj] at translates
      rw [translateChunksEvents, Runs.after_nil, translates]
  | succ count ih =>
      simp only [translateChunks] at translates
      split at translates
      · cases translates
      · rename_i mapped
        simp only [translateChunksEvents, if_neg mapped, Runs.after_cons]
        rw [← ih translates]
        simp only [TransferEvent.effect, Option.map_some]
        congr 3
        exact if_neg mapped

/-- The events of the transfer requests use no records. -/
def TransferEvent.transfers : TransferEvent → Bool
  | .malloc _ _ _ | .memcpy _ _ => true
  | _ => false

theorem doActionTransferEscapeDataEvents_transfers {outcome : FaultOutcome} {manager : Manager}
    {page : ByteMem} :
    ∀ event ∈ doActionTransferEscapeDataEvents outcome manager page, event.transfers = true := by
  intro event event_mem
  simp only [doActionTransferEscapeDataEvents, transferHandshakeEvents, transferChunkEvents]
    at event_mem
  split at event_mem
  · rw [List.mem_singleton.mp event_mem]
    rfl
  · split at event_mem
    · split at event_mem
      · cases event_mem
      · rw [List.mem_singleton.mp event_mem]
        rfl
    · cases event_mem

/-! ## The events are those of the handlers -/

/-- The manager behind a handler; a process that dies has changed nothing that the next fault
could see. -/
def Manager.behind (manager : Manager) : Option Handled → Manager
  | some (_, manager', _) => manager'
  | none => manager

/-- The events leave the buffer that `after` has, and hand over what its new calls carry. -/
def Performs (outcome : FaultOutcome) (manager : Manager) (page : ByteMem)
    (events : List TransferEvent) (after : Manager) : Prop :=
  ∃ made, after.calls = manager.calls ++ made ∧
    manager.bufferAfter outcome page events =
      ⟨after.transfer.ptr, made.filterMap HostCall.dmaRecords⟩

section Performs

variable {outcome : FaultOutcome} {manager : Manager} {page : ByteMem}

/-- Without events and calls, the buffer stays as it is. -/
theorem performs_nil {after : Manager} (calls : after.calls = manager.calls)
    (ptr : after.transfer.ptr = manager.transfer.ptr) : Performs outcome manager page [] after :=
  ⟨[], by rw [calls, List.append_nil], by rw [ptr]; rfl⟩

theorem performs_transferHandshake :
    Performs outcome manager page (transferHandshakeEvents outcome page)
      (transferHandshake outcome manager page).2.1 := by
  refine ⟨[], ?_, ?_⟩
  · rw [transferHandshake]
    cases outcome.malloc <;> simp
  · rw [transferHandshake]
    cases allocated : outcome.malloc <;>
      simp [Manager.bufferAfter, transferHandshakeEvents, TransferEvent.effect, allocated]

theorem performs_transferChunk :
    Performs outcome manager page (transferChunkEvents manager page)
      (manager.behind (transferChunk manager page)) := by
  simp only [transferChunkEvents, transferChunk]
  split
  · exact performs_nil rfl rfl
  · rcases ptr : manager.transfer.ptr with _ | mem
    · -- an empty chunk copies nothing, any other one kills the process
      have nothing : Manager.behind manager (if chunkTransfer page = 0 then
          some (0, manager, page.setInt ActionTransferEscapeData.status TransferStatus.ok.code)
          else none) = manager := by split <;> rfl
      dsimp only
      rw [nothing]
      refine ⟨[], (List.append_nil _).symm, ?_⟩
      simp [Manager.bufferAfter, TransferEvent.effect, ptr]
    · refine ⟨[], by simp [Manager.behind], ?_⟩
      simp [Manager.bufferAfter, TransferEvent.effect, ptr, Manager.behind]

theorem performs_doActionTransferEscapeData :
    Performs outcome manager page (doActionTransferEscapeDataEvents outcome manager page)
      (manager.behind (doActionTransferEscapeData outcome manager page)) := by
  simp only [doActionTransferEscapeDataEvents, doActionTransferEscapeData]
  split
  · exact performs_transferHandshake
  · split
    · exact performs_transferChunk
    · exact performs_nil rfl rfl

/-- The page plays no role in the events of a DMA, so they may be those of another `source`. -/
theorem performs_doDma (source : ByteMem) :
    Performs outcome manager source (doDmaEvents manager page)
      (manager.behind (doDma outcome manager page)) := by
  simp only [doDmaEvents, doDma]
  generalize asked : page.get ActionDma.pagesNr = pagesNr
  split
  · exact performs_nil rfl rfl
  split
  · rename_i null
    refine ⟨[], (List.append_nil _).symm, ?_⟩
    simp [Manager.bufferAfter, TransferEvent.effect, null.2, Manager.behind]
  rename_i buffered
  have records := translateChunksEvents_records manager.ctx pagesNr 0
    (manager.transfer.ptr.getD ByteMem.zero)
  cases translates : translateChunks manager.ctx pagesNr 0
      (manager.transfer.ptr.getD ByteMem.zero) with
  | none =>
      refine ⟨[], (List.append_nil _).symm, ?_⟩
      rw [Manager.bufferAfter, Runs.after_append, if_neg (by simp), Runs.after_cons,
        Runs.after_nil, TransferEvent.effect, handed_records records]
      rfl
  | some chunks =>
      have visited : (manager.bufferAfter outcome source
          (translateChunksEvents manager.ctx pagesNr 0
            (manager.transfer.ptr.getD ByteMem.zero))).ptr.getD ByteMem.zero = chunks := by
        rw [Manager.bufferAfter]
        rcases ptr : manager.transfer.ptr with _ | mem
        · -- the null pointer has no record to be visited
          have empty : pagesNr = 0 := by
            by_contra some_asked
            exact buffered ⟨some_asked, ptr⟩
          subst empty
          rw [translateChunks, Option.some_inj, ptr] at translates
          exact translates
        · rw [ptr, Option.getD_some] at translates
          rw [Option.getD_some, after_translateChunksEvents outcome _ source [] translates]
          rfl
      refine ⟨[.iocDma (page.getInt ActionCommon.fd) (dmaRequest manager page chunks)
        outcome.dmaRet.toInt], rfl, ?_⟩
      rw [Manager.bufferAfter] at visited ⊢
      rw [Runs.after_append, if_pos (by rfl), Runs.after_cons, Runs.after_cons, Runs.after_nil,
        TransferEvent.effect, TransferEvent.effect, handed_records records, visited]
      simp only [List.filterMap_cons, HostCall.dmaRecords, List.filterMap_nil, List.nil_append,
        dmaRequest, readChunks, asked]
      rfl

/-- A call that hands over no chunk list stands before those of the rest. -/
theorem Performs.of_addCall {call : HostCall} (other : call.dmaRecords = none)
    {events : List TransferEvent} {after : Manager}
    (performs : Performs outcome (manager.addCall call) page events after) :
    Performs outcome manager page events after := by
  rcases performs with ⟨made, calls, effects⟩
  refine ⟨call :: made, by simp [calls, Manager.addCall], ?_⟩
  rw [List.filterMap_cons, other]
  exact effects

theorem Performs.of_behind_addCall {call : HostCall} (other : call.dmaRecords = none)
    {events : List TransferEvent} {handled : Option Handled}
    (performs : Performs outcome (manager.addCall call) page events
      ((manager.addCall call).behind handled)) :
    Performs outcome manager page events (manager.behind handled) := by
  rcases handled with _ | ⟨ret, manager', page'⟩
  · rcases performs with ⟨made, calls, effects⟩
    have nothing : made = [] := by simpa [Manager.behind] using calls
    subst nothing
    exact ⟨[], (List.append_nil _).symm, effects⟩
  · exact performs.of_addCall other

theorem performs_addCall {call : HostCall} (other : call.dmaRecords = none) :
    Performs outcome manager page [] (manager.addCall call) :=
  (performs_nil rfl rfl).of_addCall other

theorem performs_handleMmap :
    Performs outcome manager page [] (manager.behind (handleMmap outcome manager page)) := by
  by_cases failed : outcome.malloc = none
  · rw [handleMmap_of_failed failed]
    exact performs_nil rfl rfl
  by_cases listed : MmapListed page
  · rw [handleMmap_of_listed failed listed]
    exact performs_addCall rfl
  · rw [handleMmap_of_not_listed failed listed]
    exact performs_nil rfl rfl

theorem performs_handleUnmap :
    Performs outcome manager page (handleUnmapEvents outcome manager page)
      (manager.behind (handleUnmap outcome manager page)) := by
  rw [handleUnmapEvents]
  by_cases failed : outcome.malloc = none
  · rw [handleUnmap_of_failed failed, if_pos (Or.inl failed)]
    exact performs_nil rfl rfl
  by_cases listed : UnmapListed page
  · rw [handleUnmap_of_listed failed listed, if_neg (by simp [failed, listed])]
    exact (performs_doDma page).of_behind_addCall rfl
  · rw [handleUnmap_of_not_listed failed listed, if_pos (Or.inr listed)]
    exact performs_nil rfl rfl

/-- What a request does to the buffer, and what its DMA takes out of it, is the effect of its
events. -/
theorem performs_handleAction (outcome : FaultOutcome) (manager : Manager) (page : ByteMem) :
    Performs outcome manager page (handleActionEvents outcome manager page)
      (manager.behind (handleAction outcome manager page)) := by
  cases known : FhAction.ofCode (page.get FaultData.action) with
  | none =>
      simp only [handleActionEvents, handleAction, known]
      exact performs_nil rfl rfl
  | some action =>
      simp only [handleActionEvents, handleAction, known]
      cases action with
      | unmap => exact performs_handleUnmap
      | dma => exact performs_doDma page
      | transferEscapeData => exact performs_doActionTransferEscapeData
      | mmap => exact performs_handleMmap
      | openDevice | closeDevice => exact performs_addCall rfl
      | _ => exact performs_nil rfl rfl

end Performs

/-! ## The bytes that a reply depends on -/

/-- The same manager with other bytes in its transfer buffer. -/
def Manager.withBuffer (manager : Manager) (mem : ByteMem) : Manager :=
  { manager with transfer := { manager.transfer with ptr := some mem } }

/-- What the driver and the guest see of a handler. -/
def seenOf (handled : Handled) : ℤ × List HostCall × ByteMem :=
  (handled.1, handled.2.1.calls, handled.2.2)

section Loads

variable {outcome : FaultOutcome} {manager : Manager} {page mem mem' : ByteMem}

/-- The loop decides by the numbers of the records that it visits. -/
theorem translateChunks_eq_none_iff_of_loads {ctx : CtxStruct} {count : ℕ}
    (agree : ∀ event ∈ translateChunksEvents ctx count 0 mem, Set.EqOn mem mem' event.loads) :
    translateChunks ctx count 0 mem = none ↔ translateChunks ctx count 0 mem' = none := by
  have visited : ∀ step < count,
      (∀ earlier < step, getAddrMapVaddrVerify ctx (mem.get (chunkAddr (0 + earlier))) ≠ 0) →
        mem.get (chunkAddr (0 + step)) = mem'.get (chunkAddr (0 + step)) := by
    intro step step_lt mapped
    have isEvent := (mem_translateChunksEvents_iff ctx count 0 mem _).mpr
      ⟨step, step_lt, rfl, mapped⟩
    apply ByteMem.get_congr
    intro byte byte_lt
    refine agree _ isEvent ?_
    simp only [TransferEvent.loads, chunkAddr, Set.mem_Ico] at byte_lt ⊢
    omega
  rw [← not_iff_not, ← ne_eq, ← ne_eq, translateChunks_ne_none_iff, translateChunks_ne_none_iff]
  constructor
  · intro mapped step step_lt
    rw [← visited step step_lt fun earlier earlier_lt => mapped earlier (by omega)]
    exact mapped step step_lt
  · intro mapped step
    induction step using Nat.strong_induction_on with
    | _ step ih =>
        intro step_lt
        rw [visited step step_lt fun earlier earlier_lt => ih earlier earlier_lt (by omega)]
        exact mapped step step_lt

theorem ofMem_eq_of_eqOn {count index : ℕ}
    (agree : Set.EqOn mem mem' (Set.Ico 0 (PageChunk.size * count))) (index_lt : index < count) :
    PageChunk.ofMem mem (PageChunk.size * index) =
      PageChunk.ofMem mem' (PageChunk.size * index) := by
  rw [PageChunk.ofMem_eq_ofMem_iff]
  intro byte byte_lt
  apply agree
  simp only [PageChunk.size, Set.mem_Ico] at byte_lt ⊢
  omega

theorem doDma_withBuffer (ptr : manager.transfer.ptr = some mem)
    (agree : ∀ event ∈ doDmaEvents manager page, Set.EqOn mem mem' event.loads) :
    (doDma outcome (manager.withBuffer mem') page).map seenOf =
      (doDma outcome manager page).map seenOf := by
  by_cases announced : manager.transfer.infoCtx = FhAction.dma.code
  swap
  · simp only [doDma, Manager.withBuffer, ne_eq, announced, not_false_eq_true, ↓reduceIte]
    rfl
  simp only [doDmaEvents, announced, ne_eq, not_true_eq_false, ↓reduceIte, ptr, reduceCtorEq,
    and_false, Option.getD_some, List.mem_append] at agree
  have decides := translateChunks_eq_none_iff_of_loads fun event visited =>
    agree event (Or.inl visited)
  simp only [doDma, Manager.withBuffer, announced, ne_eq, not_true_eq_false, ↓reduceIte, ptr,
    Option.getD_some, reduceCtorEq, and_false]
  cases translates : translateChunks manager.ctx (page.get ActionDma.pagesNr) 0 mem with
  | none =>
      rw [decides.mp translates]
      rfl
  | some chunks =>
      rcases Option.ne_none_iff_exists'.mp (mt decides.mpr (by simp [translates]))
        with ⟨chunks', translates'⟩
      have records : readChunks chunks' (page.get ActionDma.pagesNr) =
          readChunks chunks (page.get ActionDma.pagesNr) := by
        rw [readChunks_of_translateChunks translates, readChunks_of_translateChunks translates']
        apply List.map_congr_left
        intro index index_mem
        have handed := agree (.ioctlDma (page.get ActionDma.pagesNr))
          (Or.inr (by simp [translates]))
        rw [ofMem_eq_of_eqOn handed (List.mem_range.mp index_mem)]
      rw [translates']
      simp only [Option.map_some, seenOf, dmaClean, doActionTransferEscapeDataFree,
        Manager.addCall, dmaRequest, records]

theorem transferChunk_withBuffer (ptr : manager.transfer.ptr = some mem) :
    (transferChunk (manager.withBuffer mem') page).map seenOf =
      (transferChunk manager page).map seenOf := by
  dsimp only [transferChunk, Manager.withBuffer]
  by_cases overruns : manager.transfer.size < u64 (manager.transfer.chunk + chunkTransfer page)
  · rw [if_pos overruns, if_pos overruns]
    rfl
  · rw [if_neg overruns, if_neg overruns, ptr]
    rfl

theorem doActionTransferEscapeData_withBuffer (ptr : manager.transfer.ptr = some mem) :
    (doActionTransferEscapeData outcome (manager.withBuffer mem') page).map seenOf =
      (doActionTransferEscapeData outcome manager page).map seenOf := by
  simp only [doActionTransferEscapeData]
  split
  · simp only [transferHandshake]
    cases outcome.malloc <;> rfl
  · split
    · exact transferChunk_withBuffer ptr
    · rfl

theorem handleMmap_withBuffer :
    (handleMmap outcome (manager.withBuffer mem') page).map seenOf =
      (handleMmap outcome manager page).map seenOf := by
  by_cases failed : outcome.malloc = none
  · rw [handleMmap_of_failed failed, handleMmap_of_failed failed]
    rfl
  by_cases listed : MmapListed page
  · rw [handleMmap_of_listed failed listed, handleMmap_of_listed failed listed]
    rfl
  · rw [handleMmap_of_not_listed failed listed, handleMmap_of_not_listed failed listed]

theorem handleUnmap_withBuffer (ptr : manager.transfer.ptr = some mem)
    (agree : ∀ event ∈ handleUnmapEvents outcome manager page, Set.EqOn mem mem' event.loads) :
    (handleUnmap outcome (manager.withBuffer mem') page).map seenOf =
      (handleUnmap outcome manager page).map seenOf := by
  by_cases failed : outcome.malloc = none
  · rw [handleUnmap_of_failed failed, handleUnmap_of_failed failed]
    rfl
  by_cases listed : UnmapListed page
  · rw [handleUnmapEvents, if_neg (by simp [failed, listed])] at agree
    rw [handleUnmap_of_listed failed listed, handleUnmap_of_listed failed listed]
    have same : (manager.withBuffer mem').addCall (unmapCall outcome (manager.withBuffer mem') page
        (unmapAddrs (manager.withBuffer mem') page)) =
          (manager.addCall (unmapCall outcome manager page (unmapAddrs manager page))).withBuffer
            mem' := rfl
    rw [same]
    apply doDma_withBuffer
    · exact ptr
    · exact agree
  · rw [handleUnmap_of_not_listed failed listed, handleUnmap_of_not_listed failed listed]

/-- What comes of a request depends only on those bytes of the buffer that its events read. -/
theorem handleAction_withBuffer (ptr : manager.transfer.ptr = some mem)
    (agree : ∀ event ∈ handleActionEvents outcome manager page, Set.EqOn mem mem' event.loads) :
    (handleAction outcome (manager.withBuffer mem') page).map seenOf =
      (handleAction outcome manager page).map seenOf := by
  cases known : FhAction.ofCode (page.get FaultData.action) with
  | none =>
      simp only [handleAction, known]
      rfl
  | some action =>
      simp only [handleActionEvents, known] at agree
      simp only [handleAction, known]
      cases action with
      | unmap => exact handleUnmap_withBuffer ptr agree
      | dma => exact doDma_withBuffer ptr agree
      | transferEscapeData => exact doActionTransferEscapeData_withBuffer ptr
      | mmap => exact handleMmap_withBuffer
      | getEmptyMappings =>
          simp only [handleEmptyMappings]
          rfl
      | _ => rfl

end Loads

end Acai
