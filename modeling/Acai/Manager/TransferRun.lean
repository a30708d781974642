import Acai.Manager.Listener
import Acai.Manager.TransferEvents

/-!
# The transfer buffer over whole runs

A DMA takes two kinds of requests: the guest announces a list of chunk records
and sends it in pieces (`do_action_transfer_escape_data`), and a later request
names the number of records and starts the transfer (`do_dma`). In between, the
list lives in the static variables `action_transfer_data_*`.

A ledger of what the requests do to the transfer buffer is kept beside the host
over a run. It knows what the code does not: how long the block behind
`action_transfer_data_ptr` really is, how many bytes were copied into it, which
handshake it belongs to and which lists were used up.

Two results come out of it. The static variables agree with the ledger as long
as the listener runs, copies stay inside the block and a list is used by one DMA
at most. The number of records is never compared with the number of bytes that
arrived, so a DMA stays within these bytes only when the guest asks for no more.
-/

namespace Acai

@[irreducible]
def Host.transferEvents (host : Host) (page : ByteMem) : List TransferEvent :=
  if host.serving ∧ page.get FaultData.turn = FhTurn.host.code then
    handleActionEvents host.outcome host.manager page
  else []

/-! ## The ledger -/

structure TransferLedger where
  /-- The length of the block behind the transfer buffer, 0 for the null pointer. -/
  allocated : ℕ
  /-- The bytes copied into the block since the last handshake. -/
  received : ℕ
  /-- The `info_ctx` of every handshake so far. -/
  handshakes : List ℕ
  /-- The handshake whose list the buffer holds. -/
  owner : Option ℕ
  /-- The handshakes whose lists were handed to a DMA. -/
  consumed : List ℕ

namespace TransferLedger

def initial : TransferLedger where
  allocated := 0
  received := 0
  handshakes := []
  owner := none
  consumed := []

def note (ledger : TransferLedger) : TransferEvent → TransferLedger
  | .malloc infoCtx size succeeded =>
      { ledger with
        allocated := if succeeded then size else 0
        received := 0
        handshakes := ledger.handshakes ++ [infoCtx]
        owner := if succeeded then some ledger.handshakes.length else none }
  | .memcpy _ count => { ledger with received := ledger.received + count }
  | .record _ => ledger
  | .ioctlDma _ => { ledger with consumed := ledger.consumed ++ ledger.owner.toList }
  | .free => { ledger with allocated := 0, received := 0, owner := none }

/-- A copy stays inside the block; a DMA uses the list of the latest handshake, which was
made for a DMA, and nobody used this list before. -/
def Admits (ledger : TransferLedger) : TransferEvent → Prop
  | .memcpy offset count => offset + count ≤ ledger.allocated
  | .ioctlDma _ =>
      ∃ handshake, ledger.owner = some handshake ∧
        handshake + 1 = ledger.handshakes.length ∧
        ledger.handshakes[handshake]? = some FhAction.dma.code ∧
        handshake ∉ ledger.consumed
  | _ => True

/-- The records that an event uses lie within the bytes that were received. -/
def Backs (ledger : TransferLedger) : TransferEvent → Prop
  | .record index => PageChunk.size * (index + 1) ≤ ledger.received
  | .ioctlDma count => PageChunk.size * count ≤ ledger.received
  | _ => True

end TransferLedger

structure TransferRun where
  host : Host
  ledger : TransferLedger

namespace TransferRun

def step (run : TransferRun) (page : ByteMem) : TransferRun where
  host := (run.host.onEscape page).1
  ledger := Runs.after TransferLedger.note run.ledger (run.host.transferEvents page)

/-- The manager when its listener starts. -/
def startHost (ctx : CtxStruct) (outcomes : ℕ → FaultOutcome) : Host where
  manager := { ctx := ctx, transfer := .initial, calls := [] }
  serving := true
  outcomes := outcomes
  served := []

def start (ctx : CtxStruct) (outcomes : ℕ → FaultOutcome) : TransferRun where
  host := startHost ctx outcomes
  ledger := .initial

/-- The device calls of the next fault. -/
def newCalls (run : TransferRun) (page : ByteMem) : List HostCall :=
  (run.step page).host.manager.calls.drop run.host.manager.calls.length

end TransferRun

/-! ## The static variables agree with the ledger -/

namespace TransferLedger

/-- What the ledger says about the static variables while the listener runs. -/
structure Agrees (ledger : TransferLedger) (transfer : TransferState) : Prop where
  allocated : ledger.allocated = transfer.size
  received : ledger.received = transfer.chunk
  chunk_le : transfer.chunk ≤ transfer.size
  size_lt : transfer.size < 2 ^ 32
  owned : ledger.owner = none ∧ transfer = .initial ∨
    ∃ handshake buffer, ledger.owner = some handshake ∧ transfer.ptr = some buffer ∧
      handshake + 1 = ledger.handshakes.length ∧
      ledger.handshakes[handshake]? = some transfer.infoCtx
  used : ∀ handshake ∈ ledger.consumed,
    handshake < ledger.handshakes.length ∧ ledger.owner ≠ some handshake

theorem agrees_initial : Agrees .initial .initial where
  allocated := rfl
  received := rfl
  chunk_le := le_refl 0
  size_lt := by decide
  owned := Or.inl ⟨rfl, rfl⟩
  used := by simp [initial]

end TransferLedger

/-- The events are those of a handler that started with `manager` and ended with `handled`. -/
structure TransferFollows (ledger : TransferLedger) (events : List TransferEvent)
    (handled : Option Handled) : Prop where
  admitted : Runs.Throughout TransferLedger.note TransferLedger.Admits ledger events
  agrees : ∀ ret manager' page', handled = some (ret, manager', page') → 0 ≤ ret →
    (Runs.after TransferLedger.note ledger events).Agrees manager'.transfer

namespace TransferFollows

variable {ledger : TransferLedger} {outcome : FaultOutcome} {manager : Manager}

theorem unchanged (agrees : ledger.Agrees manager.transfer) (ret : ℤ) (page : ByteMem) :
    TransferFollows ledger [] (some (ret, manager, page)) := by
  constructor
  · trivial
  · rintro ret manager' page' step nonneg
    cases step
    exact agrees

theorem otherCall (agrees : ledger.Agrees manager.transfer) (call : HostCall) (ret : ℤ)
    (page : ByteMem) : TransferFollows ledger [] (some (ret, manager.addCall call, page)) := by
  have agrees' : ledger.Agrees (manager.addCall call).transfer := agrees
  exact unchanged agrees' ret page

/-- Nothing is owed by a process that dies before its first event. -/
theorem died : TransferFollows ledger [] none where
  admitted := trivial
  agrees := by simp

theorem transferHandshake (agrees : ledger.Agrees manager.transfer) (page : ByteMem) :
    TransferFollows ledger (transferHandshakeEvents outcome page)
      (some (transferHandshake outcome manager page)) := by
  cases allocated : outcome.malloc with
  | none =>
      constructor
      · exact ⟨trivial, trivial⟩
      · rintro ret manager' page' step nonneg
        simp only [Acai.transferHandshake, allocated, Option.some.injEq, Prod.mk.injEq] at step
        omega
  | some block =>
      constructor
      · exact ⟨trivial, trivial⟩
      · rintro ret manager' page' step nonneg
        simp only [Acai.transferHandshake, allocated, Option.some.injEq, Prod.mk.injEq] at step
        rcases step with ⟨-, rfl, -⟩
        simp only [transferHandshakeEvents, allocated, Option.isSome_some, Runs.after_cons,
          Runs.after_nil, TransferLedger.note, ↓reduceIte]
        refine ⟨rfl, rfl, Nat.zero_le _, ByteMem.get_lt _ _,
          Or.inr ⟨_, block, rfl, rfl, ?_, ?_⟩, ?_⟩
        · simp
        · simp
        · intro handshake handshake_mem
          have earlier := (agrees.used handshake handshake_mem).1
          refine ⟨by simp; omega, ?_⟩
          intro same
          cases same
          omega

/-- The sum of the two 64-bit operands does not wrap, as both are below 2^32. -/
theorem chunk_u64 (agrees : ledger.Agrees manager.transfer) (page : ByteMem) :
    u64 (manager.transfer.chunk + chunkTransfer page) =
      manager.transfer.chunk + chunkTransfer page := by
  have chunk_le := agrees.chunk_le
  have size_lt := agrees.size_lt
  have transfer_le : chunkTransfer page ≤ transferMax := min_le_right _ _
  have max_lt : transferMax < 2 ^ 32 := by decide
  exact Nat.mod_eq_of_lt (by omega)

theorem transferChunk (agrees : ledger.Agrees manager.transfer) (page : ByteMem) :
    TransferFollows ledger (transferChunkEvents manager page) (transferChunk manager page) := by
  have noWrap := chunk_u64 agrees page
  by_cases overruns : manager.transfer.size < u64 (manager.transfer.chunk + chunkTransfer page)
  · simp only [transferChunkEvents, Acai.transferChunk, overruns, ↓reduceIte]
    exact unchanged agrees _ _
  · have inside : manager.transfer.chunk + chunkTransfer page ≤ ledger.allocated := by
      rw [agrees.allocated, ← noWrap]
      omega
    simp only [transferChunkEvents, Acai.transferChunk, overruns, ↓reduceIte]
    rcases agrees.owned with ⟨unowned, idle⟩ | ⟨handshake, buffer, owner, ptr, latest, announced⟩
    · -- without a buffer nothing was announced, and only an empty chunk gets here
      have empty : chunkTransfer page = 0 := by
        rw [agrees.allocated, idle] at inside
        simp only [TransferState.initial] at inside
        omega
      simp only [idle, TransferState.initial, empty, ↓reduceIte]
      constructor
      · exact ⟨Nat.zero_le _, trivial⟩
      · rintro ret manager' page' step nonneg
        cases step
        exact agrees
    · simp only [ptr]
      constructor
      · exact ⟨inside, trivial⟩
      · rintro ret manager' page' step nonneg
        cases step
        refine ⟨agrees.allocated, ?_, ?_, agrees.size_lt,
          Or.inr ⟨handshake, _, owner, rfl, latest, announced⟩, agrees.used⟩
        · rw [noWrap, ← agrees.received]
          rfl
        · exact not_lt.mp overruns

theorem doActionTransferEscapeData (agrees : ledger.Agrees manager.transfer) (page : ByteMem) :
    TransferFollows ledger (doActionTransferEscapeDataEvents outcome manager page)
      (doActionTransferEscapeData outcome manager page) := by
  simp only [doActionTransferEscapeDataEvents, Acai.doActionTransferEscapeData]
  split
  · exact transferHandshake agrees page
  · split
    · exact transferChunk agrees page
    · exact unchanged agrees _ _

end TransferFollows

theorem throughout_records_iff {property : TransferLedger → TransferEvent → Prop}
    {events : List TransferEvent} (records : ∀ event ∈ events, ∃ index, event = .record index)
    (ledger : TransferLedger) :
    Runs.Throughout TransferLedger.note property ledger events ↔
      ∀ event ∈ events, property ledger event := by
  induction events with
  | nil => simp
  | cons event events ih =>
      rcases records event List.mem_cons_self with ⟨index, rfl⟩
      rw [Runs.throughout_cons, List.forall_mem_cons]
      apply and_congr_right
      intro _
      exact ih fun event event_mem => records event (List.mem_cons_of_mem _ event_mem)

theorem after_records {events : List TransferEvent}
    (records : ∀ event ∈ events, ∃ index, event = .record index) (ledger : TransferLedger) :
    Runs.after TransferLedger.note ledger events = ledger := by
  induction events with
  | nil => rfl
  | cons event events ih =>
      rcases records event List.mem_cons_self with ⟨index, rfl⟩
      exact ih fun event event_mem => records event (List.mem_cons_of_mem _ event_mem)

theorem admits_records {events : List TransferEvent} {ledger : TransferLedger}
    (records : ∀ event ∈ events, ∃ index, event = .record index) :
    ∀ event ∈ events, ledger.Admits event := by
  intro event event_mem
  rcases records event event_mem with ⟨_, rfl⟩
  trivial

namespace TransferLedger

variable {ledger : TransferLedger} {manager : Manager}

/-- The list in the buffer is of the latest handshake and was not used. -/
theorem Agrees.admits_ioctlDma (agrees : ledger.Agrees manager.transfer)
    (announced : manager.transfer.infoCtx = FhAction.dma.code) (count : ℕ) :
    ledger.Admits (.ioctlDma count) := by
  rcases agrees.owned with ⟨-, idle⟩ | ⟨handshake, buffer, owner, -, latest, infoCtx⟩
  · rw [idle] at announced
    exact absurd announced (by decide)
  · refine ⟨handshake, owner, latest, by rw [infoCtx, announced], ?_⟩
    intro handshake_mem
    exact (agrees.used handshake handshake_mem).2 owner

theorem Agrees.consume (agrees : ledger.Agrees manager.transfer) (count : ℕ) :
    ((ledger.note (.ioctlDma count)).note .free).Agrees .initial where
  allocated := rfl
  received := rfl
  chunk_le := le_refl 0
  size_lt := by decide
  owned := Or.inl ⟨rfl, rfl⟩
  used := by
    intro handshake handshake_mem
    refine ⟨?_, by simp [note]⟩
    simp only [note, List.mem_append, Option.mem_toList] at handshake_mem ⊢
    rcases handshake_mem with earlier | owner
    · exact (agrees.used handshake earlier).1
    · rcases agrees.owned with ⟨unowned, -⟩ | ⟨handshake', buffer, owner', -, latest, -⟩
      · rw [unowned] at owner
        cases owner
      · rw [owner'] at owner
        cases owner
        omega

end TransferLedger

namespace TransferFollows

variable {ledger : TransferLedger} {outcome : FaultOutcome} {manager : Manager}

/-- A record without an address ends the DMA, and the buffer is released unused. -/
theorem dmaRefused {visited : List TransferEvent}
    (records : ∀ event ∈ visited, ∃ index, event = .record index) (page : ByteMem) :
    TransferFollows ledger (visited ++ [.free]) (some (dmaClean outcome manager page (-1))) := by
  constructor
  · rw [Runs.throughout_append, throughout_records_iff records]
    exact ⟨admits_records records, trivial, trivial⟩
  · intro ret manager' page' step nonneg
    simp only [dmaClean, Option.some.injEq, Prod.mk.injEq] at step
    omega

theorem dmaIssued (agrees : ledger.Agrees manager.transfer)
    (announced : manager.transfer.infoCtx = FhAction.dma.code) {visited : List TransferEvent}
    (records : ∀ event ∈ visited, ∃ index, event = .record index) (call : HostCall) (count : ℕ)
    (page : ByteMem) (dmaRet : ℤ) :
    TransferFollows ledger (visited ++ [.ioctlDma count, .free])
      (some (dmaClean outcome (manager.addCall call) page dmaRet)) := by
  constructor
  · rw [Runs.throughout_append, throughout_records_iff records, after_records records]
    exact ⟨admits_records records, agrees.admits_ioctlDma announced count, trivial, trivial⟩
  · intro ret manager' page' step nonneg
    simp only [dmaClean, Option.some.injEq, Prod.mk.injEq] at step
    rcases step with ⟨-, rfl, -⟩
    rw [Runs.after_append, after_records records]
    exact agrees.consume count

theorem doDma (agrees : ledger.Agrees manager.transfer) (page : ByteMem) :
    TransferFollows ledger (doDmaEvents manager page) (doDma outcome manager page) := by
  simp only [doDmaEvents, Acai.doDma]
  generalize page.get ActionDma.pagesNr = pagesNr
  split
  · exact unchanged agrees _ _
  · rename_i announced
    split
    · exact ⟨⟨trivial, trivial⟩, by simp⟩
    · have records := translateChunksEvents_records manager.ctx pagesNr 0
        (manager.transfer.ptr.getD ByteMem.zero)
      cases translates : translateChunks manager.ctx pagesNr 0
          (manager.transfer.ptr.getD ByteMem.zero) with
      | none => exact dmaRefused records page
      | some chunks => exact dmaIssued agrees (not_not.mp announced) records _ _ page _

theorem handleMmap (agrees : ledger.Agrees manager.transfer) (page : ByteMem) :
    TransferFollows ledger [] (handleMmap outcome manager page) := by
  by_cases failed : outcome.malloc = none
  · rw [handleMmap_of_failed failed]
    exact unchanged agrees _ _
  by_cases listed : MmapListed page
  · rw [handleMmap_of_listed failed listed]
    exact otherCall agrees _ _ _
  · rw [handleMmap_of_not_listed failed listed]
    exact died

theorem handleUnmap (agrees : ledger.Agrees manager.transfer) (page : ByteMem) :
    TransferFollows ledger (handleUnmapEvents outcome manager page)
      (handleUnmap outcome manager page) := by
  rw [handleUnmapEvents]
  by_cases failed : outcome.malloc = none
  · rw [handleUnmap_of_failed failed, if_pos (Or.inl failed)]
    exact unchanged agrees _ _
  by_cases listed : UnmapListed page
  · rw [handleUnmap_of_listed failed listed, if_neg (by simp [failed, listed])]
    let call := unmapCall outcome manager page (unmapAddrs manager page)
    have agrees' : ledger.Agrees (manager.addCall call).transfer := agrees
    exact doDma agrees' _
  · rw [handleUnmap_of_not_listed failed listed, if_pos (Or.inr listed)]
    exact died

theorem handleAction (agrees : ledger.Agrees manager.transfer) (page : ByteMem) :
    TransferFollows ledger (handleActionEvents outcome manager page)
      (handleAction outcome manager page) := by
  cases known : FhAction.ofCode (page.get FaultData.action) with
  | none =>
      simp only [handleActionEvents, Acai.handleAction, known]
      exact unchanged agrees _ _
  | some action =>
      simp only [handleActionEvents, Acai.handleAction, known]
      cases action with
      | unmap => exact handleUnmap agrees page
      | dma => exact doDma agrees page
      | transferEscapeData => exact doActionTransferEscapeData agrees page
      | mmap => exact handleMmap agrees page
      | openDevice | closeDevice => exact otherCall agrees _ _ _
      | _ => exact unchanged agrees _ _

end TransferFollows

namespace TransferRun

/-- While the listener runs, the ledger agrees with the static variables. -/
def Coherent (run : TransferRun) : Prop :=
  run.host.serving = true → run.ledger.Agrees run.host.manager.transfer

/-- The state of the transfer buffer as the handlers rely on it. -/
structure WellFormed (run : TransferRun) : Prop where
  allocated : run.ledger.allocated = run.host.manager.transfer.size
  chunk_le : run.host.manager.transfer.chunk ≤ run.host.manager.transfer.size

/-- The events of the next fault are what the fault does: their effects, one after another, leave
the buffer that the fault leaves, and hand over the chunk lists that its device calls carry. -/
def Performs (run : TransferRun) (page : ByteMem) : Prop :=
  run.host.manager.bufferAfter run.host.outcome page (run.host.transferEvents page) =
    ⟨(run.step page).host.manager.transfer.ptr,
      (run.newCalls page).filterMap HostCall.dmaRecords⟩

/-- The next fault copies into the block only, and its DMA uses a fresh list. -/
structure SafeFault (run : TransferRun) (page : ByteMem) : Prop where
  admitted : Runs.Throughout TransferLedger.note TransferLedger.Admits run.ledger
    (run.host.transferEvents page)
  performed : run.Performs page

variable {run : TransferRun}

theorem step_of_idle {page : ByteMem}
    (idle : ¬(run.host.serving = true ∧ page.get FaultData.turn = FhTurn.host.code)) :
    run.step page = run := by
  have events : run.host.transferEvents page = [] := by simp [Host.transferEvents, idle]
  have ended : run.host.serving = false ∨ page.get FaultData.turn ≠ FhTurn.host.code := by
    by_cases serving : run.host.serving = true
    · exact Or.inr fun turn => idle ⟨serving, turn⟩
    · exact Or.inl (by simpa using serving)
  simp only [step, events, Host.onEscape_of_idle ended, Runs.after_nil]

theorem coherent_start (ctx : CtxStruct) (outcomes : ℕ → FaultOutcome) :
    (start ctx outcomes).Coherent := by
  intro _
  exact TransferLedger.agrees_initial

theorem transferEvents_of_active {page : ByteMem} (serving : run.host.serving = true)
    (turn : page.get FaultData.turn = FhTurn.host.code) :
    run.host.transferEvents page =
      handleActionEvents run.host.outcome run.host.manager page := by
  simp [Host.transferEvents, serving, turn]

theorem manager_of_active {page : ByteMem} (serving : run.host.serving = true)
    (turn : page.get FaultData.turn = FhTurn.host.code) :
    (run.step page).host.manager =
      run.host.manager.behind (handleAction run.host.outcome run.host.manager page) := by
  cases handled : handleAction run.host.outcome run.host.manager page with
  | none => exact Host.onEscape_of_died turn handled
  | some result =>
      rcases result with ⟨ret, manager', page'⟩
      exact Host.onEscape_manager serving turn handled

theorem follows_events {page : ByteMem} (coherent : run.Coherent)
    (serving : run.host.serving = true) (turn : page.get FaultData.turn = FhTurn.host.code) :
    TransferFollows run.ledger (run.host.transferEvents page)
      (handleAction run.host.outcome run.host.manager page) := by
  rw [transferEvents_of_active serving turn]
  exact TransferFollows.handleAction (coherent serving) page

/-- Whatever the state of the host, a fault does what its events say. -/
theorem performs_fault (run : TransferRun) (page : ByteMem) : run.Performs page := by
  by_cases active : run.host.serving = true ∧ page.get FaultData.turn = FhTurn.host.code
  · rcases active with ⟨serving, turn⟩
    rw [Performs, newCalls, transferEvents_of_active serving turn,
      manager_of_active serving turn]
    rcases performs_handleAction run.host.outcome run.host.manager page with
      ⟨made, calls, effects⟩
    rw [effects, calls, List.drop_left]
  · have events : run.host.transferEvents page = [] := by simp [Host.transferEvents, active]
    rw [Performs, newCalls, step_of_idle active, events, List.drop_length]
    rfl

theorem coherent_step (page : ByteMem) (coherent : run.Coherent) : (run.step page).Coherent := by
  by_cases active : run.host.serving = true ∧ page.get FaultData.turn = FhTurn.host.code
  swap
  · rw [step_of_idle active]
    exact coherent
  rcases active with ⟨serving, turn⟩
  intro serving'
  have follows := follows_events coherent serving turn
  have takesUp := Host.onEscape_takesUp serving turn
  cases handled : handleAction run.host.outcome run.host.manager page with
  | none =>
      simp only [step] at serving'
      rw [takesUp.serving, Host.completes_of_died turn handled] at serving'
      cases serving'
  | some result =>
      rcases result with ⟨ret, manager', page'⟩
      by_cases negative : ret < 0
      · have refused := Host.completes_of_refused turn handled negative
        simp only [step] at serving'
        rw [takesUp.serving, refused] at serving'
        cases serving'
      · have kept := follows.agrees ret manager' page' handled (by omega)
        simp only [step]
        rwa [Host.onEscape_manager serving turn handled]

theorem safeFault_of_coherent (coherent : run.Coherent) (page : ByteMem) :
    run.SafeFault page := by
  refine ⟨?_, performs_fault run page⟩
  by_cases active : run.host.serving = true ∧ page.get FaultData.turn = FhTurn.host.code
  · exact (follows_events coherent active.1 active.2).admitted
  · have events : run.host.transferEvents page = [] := by simp [Host.transferEvents, active]
    rw [events]
    trivial

theorem coherent_after (ctx : CtxStruct) (outcomes : ℕ → FaultOutcome) (pages : List ByteMem) :
    (Runs.after step (start ctx outcomes) pages).Coherent :=
  Runs.after_invariant (fun _ page => coherent_step page) (coherent_start ctx outcomes) pages

end TransferRun

/--
In every run of the host, and as long as its listener has not stopped, the block
behind the transfer buffer has the announced length and the bytes counted as
received fit in it; the next fault, whatever it is, copies into this block only,
and its DMA uses up the list of the latest handshake, made for a DMA, for the
first time.
-/
theorem transferRun_sound (ctx : CtxStruct) (outcomes : ℕ → FaultOutcome)
    (pages : List ByteMem) :
    ((Runs.after TransferRun.step (.start ctx outcomes) pages).host.serving = true →
        (Runs.after TransferRun.step (.start ctx outcomes) pages).WellFormed) ∧
      ∀ page, (Runs.after TransferRun.step (.start ctx outcomes) pages).SafeFault page := by
  have coherent := TransferRun.coherent_after ctx outcomes pages
  constructor
  · intro serving
    have agrees := coherent serving
    exact ⟨agrees.allocated, agrees.chunk_le⟩
  · exact TransferRun.safeFault_of_coherent coherent

def announcePage (totalSize : ℕ) : ByteMem :=
  (((requestPage .transferEscapeData).setInt ActionTransferEscapeData.status
    TransferStatus.transferSize.code).set ActionTransferEscapeData.totalSize totalSize).set
      ActionTransferEscapeData.infoCtx FhAction.dma.code

def recordPage (chunk : PageChunk) : ByteMem :=
  (((requestPage .transferEscapeData).setInt ActionTransferEscapeData.status
    TransferStatus.transferData.code).set ActionTransferEscapeData.chunkDataSize
      PageChunk.size).writeBytes ActionTransferEscapeData.chunkData chunk.toBytes

/-- A list of one record is announced and sent. -/
def sentRun : TransferRun :=
  Runs.after TransferRun.step (.start Manager.awaitingDma.ctx fun _ => .success)
    [announcePage 24, recordPage ⟨1, 0, 16⟩]

theorem transferRun_sound_sent :
    sentRun.host.serving = true ∧ sentRun.WellFormed ∧ sentRun.SafeFault dmaPage ∧
      sentRun.ledger.allocated = 24 ∧ sentRun.ledger.received = 24 ∧
      sentRun.host.transferEvents dmaPage = [.record 0, .ioctlDma 1, .free] ∧
      (sentRun.newCalls dmaPage).filterMap HostCall.dmaRecords = [[⟨0x1000, 0, 16⟩]] := by
  have sound := transferRun_sound Manager.awaitingDma.ctx (fun _ => .success)
    [announcePage 24, recordPage ⟨1, 0, 16⟩]
  have serving : sentRun.host.serving = true := by decide +kernel
  exact ⟨serving, sound.1 serving, sound.2 dmaPage, by decide +kernel, by decide +kernel,
    by decide +kernel, by decide +kernel⟩

/-! ## Records that were not received -/

/-- The records that `do_dma` goes through were received: the guest asks for no more of
them than arrived, or one of those that arrived has no address and ends the loop. -/
def ChunksReceived (manager : Manager) (page : ByteMem) : Prop :=
  PageChunk.size * page.get ActionDma.pagesNr ≤ manager.transfer.chunk ∨
    ∃ index < page.get ActionDma.pagesNr,
      PageChunk.size * (index + 1) ≤ manager.transfer.chunk ∧
        getAddrMapVaddrVerify manager.ctx
          ((manager.transfer.ptr.getD ByteMem.zero).get (chunkAddr index)) = 0

/-- Whether a request runs into the loop of `do_dma`. -/
def ReachesDma (outcome : FaultOutcome) (manager : Manager) (page : ByteMem) : Prop :=
  manager.transfer.infoCtx = FhAction.dma.code ∧
    (FhAction.ofCode (page.get FaultData.action) = some .dma ∨
      FhAction.ofCode (page.get FaultData.action) = some .unmap ∧
        outcome.malloc ≠ none ∧ UnmapListed page)

def Host.DmaBacked (host : Host) (page : ByteMem) : Prop :=
  host.serving = true → page.get FaultData.turn = FhTurn.host.code →
    ReachesDma host.outcome host.manager page → ChunksReceived host.manager page

theorem chunksReceived_setRetAndErrNo_iff (manager : Manager) (page : ByteMem) (ret errno : ℤ) :
    ChunksReceived manager (setRetAndErrNo page ret errno) ↔ ChunksReceived manager page := by
  have pagesNr : (setRetAndErrNo page ret errno).get ActionDma.pagesNr =
      page.get ActionDma.pagesNr := by
    simp only [setRetAndErrNo]
    rw [ByteMem.get_setInt_of_disjoint (by decide), ByteMem.get_setInt_of_disjoint (by decide),
      ByteMem.get_setInt_of_disjoint (by decide)]
  simp only [ChunksReceived, pagesNr]

/-- The first record without an address is the last one that the loop visits. -/
theorem visited_received_iff (unmapped : ℕ → Prop) (count received : ℕ) :
    ((∀ index < count, (∀ earlier < index, ¬unmapped earlier) →
          PageChunk.size * (index + 1) ≤ received) ∧
        ((∀ index < count, ¬unmapped index) → PageChunk.size * count ≤ received)) ↔
      PageChunk.size * count ≤ received ∨
        ∃ index < count, PageChunk.size * (index + 1) ≤ received ∧ unmapped index := by
  classical
  simp only [PageChunk.size]
  constructor
  · rintro ⟨visited, handed⟩
    by_cases all : ∀ index < count, ¬unmapped index
    · exact Or.inl (handed all)
    · have exists_unmapped : ∃ index, index < count ∧ unmapped index := by simpa using all
      have first := Nat.find_spec exists_unmapped
      refine Or.inr ⟨Nat.find exists_unmapped, first.1, ?_, first.2⟩
      refine visited _ first.1 ?_
      intro earlier earlier_lt isUnmapped
      exact Nat.find_min exists_unmapped earlier_lt ⟨by omega, isUnmapped⟩
  · rintro (enough | ⟨index, index_lt, received_le, isUnmapped⟩)
    · exact ⟨fun index index_lt _ => by omega, fun _ => enough⟩
    · refine ⟨?_, fun all => absurd isUnmapped (all index index_lt)⟩
      intro visited visited_lt mapped_before
      have visited_le : visited ≤ index := by
        by_contra later
        exact mapped_before index (by omega) isUnmapped
      omega

theorem translateChunks_isSome_iff (ctx : CtxStruct) (count : ℕ) (chunks : ByteMem) :
    (translateChunks ctx count 0 chunks).isSome = true ↔
      ∀ index < count, getAddrMapVaddrVerify ctx (chunks.get (chunkAddr index)) ≠ 0 := by
  rw [Option.isSome_iff_ne_none, translateChunks_ne_none_iff]
  simp

theorem backs_translateChunksEvents_iff (ledger : TransferLedger) (ctx : CtxStruct) (count : ℕ)
    (chunks : ByteMem) :
    Runs.Throughout TransferLedger.note TransferLedger.Backs ledger
        (translateChunksEvents ctx count 0 chunks) ↔
      ∀ index < count,
        (∀ earlier < index, getAddrMapVaddrVerify ctx (chunks.get (chunkAddr earlier)) ≠ 0) →
          PageChunk.size * (index + 1) ≤ ledger.received := by
  rw [throughout_records_iff (translateChunksEvents_records ctx count 0 chunks)]
  simp only [mem_translateChunksEvents_iff, Nat.zero_add]
  constructor
  · intro backs index index_lt mapped
    exact backs _ ⟨index, index_lt, rfl, mapped⟩
  · rintro backs event ⟨index, index_lt, rfl, mapped⟩
    exact backs index index_lt mapped

theorem backs_doDmaEvents_iff {ledger : TransferLedger} {manager : Manager} (page : ByteMem)
    (agrees : ledger.Agrees manager.transfer) :
    Runs.Throughout TransferLedger.note TransferLedger.Backs ledger (doDmaEvents manager page) ↔
      (manager.transfer.infoCtx = FhAction.dma.code → ChunksReceived manager page) := by
  by_cases announced : manager.transfer.infoCtx = FhAction.dma.code
  swap
  · simp [doDmaEvents, announced]
  -- an announced list has a buffer, so the null pointer does not come up
  have buffered : manager.transfer.ptr ≠ none := by
    rcases agrees.owned with ⟨-, idle⟩ | ⟨handshake, buffer, -, ptr, -⟩
    · rw [idle] at announced
      exact absurd announced (by decide)
    · simp [ptr]
  have notNull : ¬(page.get ActionDma.pagesNr ≠ 0 ∧ manager.transfer.ptr = none) :=
    fun null => buffered null.2
  simp only [doDmaEvents, announced, ne_eq, not_true_eq_false, ↓reduceIte, notNull,
    ChunksReceived, true_implies]
  generalize page.get ActionDma.pagesNr = pagesNr
  generalize manager.transfer.ptr.getD ByteMem.zero = chunks
  have visited := backs_translateChunksEvents_iff ledger manager.ctx pagesNr chunks
  have records := translateChunksEvents_records manager.ctx pagesNr 0 chunks
  have mapped := translateChunks_isSome_iff manager.ctx pagesNr chunks
  have reached := visited_received_iff
    (fun index => getAddrMapVaddrVerify manager.ctx (chunks.get (chunkAddr index)) = 0) pagesNr
    manager.transfer.chunk
  refine Iff.trans ?_ reached
  rw [Runs.throughout_append, after_records records, visited, agrees.received]
  apply and_congr_right
  intro _
  split
  · rename_i translated
    simp only [Runs.throughout_cons, Runs.throughout_nil, TransferLedger.Backs, and_true,
      agrees.received]
    exact ⟨fun handed _ => handed, fun handed => handed (mapped.mp translated)⟩
  · rename_i notTranslated
    simp only [Runs.throughout_cons, Runs.throughout_nil, TransferLedger.Backs, and_true,
      true_iff]
    exact fun all => absurd (mapped.mpr all) notTranslated

theorem TransferLedger.backs_of_transferred {events : List TransferEvent}
    (transferred : ∀ event ∈ events, event.transfers = true) (ledger : TransferLedger) :
    Runs.Throughout TransferLedger.note TransferLedger.Backs ledger events := by
  apply Runs.throughout_of_forall
  intro event event_mem ledger
  have transfers := transferred event event_mem
  cases event with
  | malloc | memcpy | free => trivial
  | record | ioctlDma => cases transfers

/-- A request to unmap that is cut short has no events. -/
theorem backs_handleUnmapEvents_iff {ledger : TransferLedger} {outcome : FaultOutcome}
    {manager : Manager} (page : ByteMem) (agrees : ledger.Agrees manager.transfer) :
    Runs.Throughout TransferLedger.note TransferLedger.Backs ledger
        (handleUnmapEvents outcome manager page) ↔
      (manager.transfer.infoCtx = FhAction.dma.code →
        outcome.malloc ≠ none → UnmapListed page → ChunksReceived manager page) := by
  rw [handleUnmapEvents]
  by_cases failed : outcome.malloc = none
  · rw [if_pos (Or.inl failed)]
    exact iff_of_true trivial fun _ allocated => absurd failed allocated
  by_cases listed : UnmapListed page
  · rw [if_neg (not_or.mpr ⟨failed, not_not.mpr listed⟩), backs_doDmaEvents_iff _ agrees,
      chunksReceived_setRetAndErrNo_iff]
    exact ⟨fun received announced _ _ => received announced,
      fun received announced => received announced failed listed⟩
  · rw [if_pos (Or.inr listed)]
    exact iff_of_true trivial fun _ _ listed' => absurd listed' listed

theorem backs_handleActionEvents_iff {ledger : TransferLedger} {outcome : FaultOutcome}
    {manager : Manager} (page : ByteMem) (agrees : ledger.Agrees manager.transfer) :
    Runs.Throughout TransferLedger.note TransferLedger.Backs ledger
        (handleActionEvents outcome manager page) ↔
      (ReachesDma outcome manager page → ChunksReceived manager page) := by
  cases known : FhAction.ofCode (page.get FaultData.action) with
  | none => simp [handleActionEvents, ReachesDma, known]
  | some action =>
      simp only [handleActionEvents, ReachesDma, known]
      cases action with
      | dma => simpa using backs_doDmaEvents_iff page agrees
      | unmap => simpa using backs_handleUnmapEvents_iff page agrees
      | transferEscapeData =>
          have transferred := @doActionTransferEscapeDataEvents_transfers outcome manager page
          generalize doActionTransferEscapeDataEvents outcome manager page = events at transferred ⊢
          constructor
          · rintro - ⟨-, isDma | ⟨isUnmap, -⟩⟩
            · cases isDma
            · cases isUnmap
          · intro _
            exact TransferLedger.backs_of_transferred transferred ledger
      | _ => simp

namespace TransferRun

/-- The run with other bytes in the transfer buffer of its host. -/
def withBuffer (run : TransferRun) (mem : ByteMem) : TransferRun :=
  { run with host := { run.host with manager := run.host.manager.withBuffer mem } }

/-- What the driver and the guest see of the next fault. -/
def seen (run : TransferRun) (page : ByteMem) : List HostCall × ByteMem × Bool :=
  (run.newCalls page, (run.host.onEscape page).2, (run.step page).host.serving)

/-- What comes of the next fault depends only on those bytes of the buffer that its events read. -/
def ReadsOnly (run : TransferRun) (page : ByteMem) : Prop :=
  ∀ mem mem', run.host.manager.transfer.ptr = some mem →
    (∀ event ∈ run.host.transferEvents page, Set.EqOn mem mem' event.loads) →
      (run.withBuffer mem').seen page = run.seen page

/-- What is seen of a fault that the handler takes up. -/
def seenBehind (calls : List HostCall) (page : ByteMem) :
    Option (ℤ × List HostCall × ByteMem) → List HostCall × ByteMem × Bool
  | none => ([], page, false)
  | some (ret, calls', page') =>
      if ret < 0 then (calls'.drop calls.length, page', false)
      else (calls'.drop calls.length, page'.set FaultData.turn FhTurn.guest.code, true)

theorem seen_of_active {run : TransferRun} {page : ByteMem} (serving : run.host.serving = true)
    (turn : page.get FaultData.turn = FhTurn.host.code) :
    run.seen page = seenBehind run.host.manager.calls page
      ((handleAction run.host.outcome run.host.manager page).map seenOf) := by
  cases handled : handleAction run.host.outcome run.host.manager page with
  | none =>
      have died := Host.handle_of_died turn handled
      simp [seen, newCalls, step, seenBehind, Host.onEscape, serving, died]
  | some result =>
      rcases result with ⟨ret, manager', page'⟩
      by_cases negative : ret < 0
      · have returned := Host.handle_of_refused turn handled negative
        have refused := Host.completes_of_refused turn handled negative
        simp [seen, newCalls, step, seenBehind, seenOf, Host.onEscape, serving, returned, refused,
          negative]
      · have answered := Host.onEscape_of_handled serving turn handled (not_lt.mp negative)
        simp [seen, newCalls, step, seenBehind, seenOf, answered, Host.completing, negative,
          serving]

theorem readsOnly_fault (run : TransferRun) (page : ByteMem) : run.ReadsOnly page := by
  intro mem mem' ptr agree
  by_cases active : run.host.serving = true ∧ page.get FaultData.turn = FhTurn.host.code
  · rcases active with ⟨serving, turn⟩
    rw [transferEvents_of_active serving turn] at agree
    have serving' : (run.withBuffer mem').host.serving = true := serving
    rw [seen_of_active serving turn, seen_of_active serving' turn]
    exact congrArg (seenBehind run.host.manager.calls page) (handleAction_withBuffer ptr agree)
  · have active' : ¬((run.withBuffer mem').host.serving = true ∧
        page.get FaultData.turn = FhTurn.host.code) := active
    have ended : run.host.serving = false ∨ page.get FaultData.turn ≠ FhTurn.host.code := by
      simpa [imp_iff_not_or] using active
    have ended' : (run.withBuffer mem').host.serving = false ∨
        page.get FaultData.turn ≠ FhTurn.host.code := ended
    rw [seen, seen, newCalls, newCalls, step_of_idle active, step_of_idle active',
      Host.onEscape_of_idle ended, Host.onEscape_of_idle ended', List.drop_length,
      List.drop_length]
    rfl

/-- Every record that the next fault reads, translates or hands to the ioctl lies within the
bytes that the guest delivered since its last handshake. -/
structure UsesReceived (run : TransferRun) (page : ByteMem) : Prop where
  backed : Runs.Throughout TransferLedger.note TransferLedger.Backs run.ledger
    (run.host.transferEvents page)
  performed : run.Performs page
  readsOnly : run.ReadsOnly page

theorem usesReceived_iff {run : TransferRun} (coherent : run.Coherent) (page : ByteMem) :
    run.UsesReceived page ↔ run.host.DmaBacked page := by
  have performed := performs_fault run page
  have readsOnly := readsOnly_fault run page
  by_cases active : run.host.serving = true ∧ page.get FaultData.turn = FhTurn.host.code
  · rcases active with ⟨serving, turn⟩
    have backed := @backs_handleActionEvents_iff _ run.host.outcome _ page (coherent serving)
    rw [← transferEvents_of_active serving turn] at backed
    constructor
    · intro uses _ _
      exact backed.mp uses.backed
    · intro dmaBacked
      exact ⟨backed.mpr (dmaBacked serving turn), performed, readsOnly⟩
  · have events : run.host.transferEvents page = [] := by simp [Host.transferEvents, active]
    constructor
    · intro _ serving turn
      exact absurd ⟨serving, turn⟩ active
    · intro _
      refine ⟨?_, performed, readsOnly⟩
      rw [events]
      trivial

end TransferRun

/--
A run uses received records only exactly when the guest never asks for more
records than it sent, short of a received record without an address that ends
the DMA before the ioctl.
-/
theorem transferRun_usesReceived_iff (ctx : CtxStruct) (outcomes : ℕ → FaultOutcome)
    (pages : List ByteMem) :
    Runs.Throughout TransferRun.step TransferRun.UsesReceived (.start ctx outcomes) pages ↔
      Runs.Throughout (fun host page => (host.onEscape page).1) Host.DmaBacked
        (TransferRun.startHost ctx outcomes) pages := by
  refine Runs.throughout_iff_of_simulation (fun run host => run.host = host ∧ run.Coherent)
    ?_ ?_ ⟨rfl, TransferRun.coherent_start ctx outcomes⟩ pages
  · rintro run host page ⟨rfl, coherent⟩
    exact TransferRun.usesReceived_iff coherent page
  · rintro run host page ⟨rfl, coherent⟩ -
    exact ⟨rfl, TransferRun.coherent_step page coherent⟩

/-- Blocks of `malloc` that still hold a page frame number of an earlier list. -/
def staleBlocks (_ : ℕ) : FaultOutcome :=
  { FaultOutcome.success with
    malloc := some (ByteMem.zero.writeBytes 0 (PageChunk.toBytes ⟨1, 0, 16⟩)) }

def announcedRun : TransferRun :=
  (TransferRun.start Manager.awaitingDma.ctx staleBlocks).step (announcePage 24)

/-- A list is announced, no byte of it is sent, and the DMA is started all the same. -/
theorem dma_hands_unreceived_record :
    ¬∀ ctx outcomes pages,
      Runs.Throughout TransferRun.step TransferRun.UsesReceived (.start ctx outcomes) pages := by
  intro claim
  have uses : announcedRun.UsesReceived dmaPage :=
    (claim Manager.awaitingDma.ctx staleBlocks [announcePage 24, dmaPage]).2.1
  have events : announcedRun.host.transferEvents dmaPage = [.record 0, .ioctlDma 1, .free] := by
    decide +kernel
  have received : announcedRun.ledger.received = 0 := by decide +kernel
  have backed := uses.backed
  rw [events] at backed
  have first : PageChunk.size * (0 + 1) ≤ announcedRun.ledger.received := backed.1
  rw [received] at first
  exact absurd first (by decide)

end Acai
