import Acai.Engine.Submit

/-!
# The queue of an engine

Transfers wait in a list until the engine has worked them off. The engine is started on
the transfer at the head of the list, and stopped before the results of a run are looked
at. Everything here is done under `engine->lock`.

What the registers of the engine give is an input. A transfer leaves the list by
`engine_service`, which decides whether it is complete or has failed, or by
`transfer_abort`, which takes it off only from the head of the list.
-/

namespace Acai

/-- `enum transfer_state` -/
inductive XferState where
  | new
  | submitted
  | completed
  | failed
  | aborted
  deriving DecidableEq

/-- The part of `struct xdma_transfer` that the queue uses. -/
structure QueueXfer where
  state : XferState
  descNum : UInt32
  descCmpl : UInt32
  /-- `XFER_FLAG_ST_C2H_EOP_RCVED` -/
  eopRcved : Bool
  descBus : UInt64
  descAdjacent : UInt32

/-- A transfer as `transfer_init` makes it. -/
def QueueXfer.made (descNum : UInt32) (descBus : UInt64) : QueueXfer where
  state := .new
  descNum := descNum
  descCmpl := 0
  eopRcved := false
  descBus := descBus
  descAdjacent := descNum

/-- The registers that name the first descriptor of a run, and the number of those that are read
with it. -/
structure FirstDesc where
  lo : UInt32
  hi : UInt32
  adjacent : UInt32
  deriving DecidableEq

def FirstDesc.bus (regs : FirstDesc) : UInt64 := joinWords regs.hi regs.lo

/-- What `engine_start` writes to the registers for a transfer. -/
def QueueXfer.firstDesc (xfer : QueueXfer) : FirstDesc where
  lo := pciDmaL xfer.descBus
  hi := pciDmaH xfer.descBus
  adjacent := xdmaGetNextAdj xfer.descAdjacent (pciDmaL xfer.descBus)

/-- The engine reads from the first descriptor of the transfer on, and what it reads at once are
descriptors of the transfer in one block. -/
theorem QueueXfer.firstDesc_reads {xfer : QueueXfer}
    (aligned : XdmaDesc.size ∣ (pciDmaL xfer.descBus).toNat) :
    xfer.firstDesc.bus = xfer.descBus ∧
      xfer.firstDesc.lo.toNat % 2048 +
        XdmaDesc.size * (xfer.firstDesc.adjacent.toNat + 1) ≤ 2048 ∧
      xfer.firstDesc.adjacent.toNat ≤ xfer.descAdjacent.toNat - 1 :=
  ⟨joinWords_split xfer.descBus, xdmaGetNextAdj_inBlock xfer.descAdjacent aligned⟩

def xdmaStatBusy : UInt32 := 1

def xdmaStatCommonErrMask : UInt32 := 0x38

def xdmaStatDescErrMask : UInt32 := 0xF80000

def xdmaStatH2cErrMask : UInt32 :=
  xdmaStatCommonErrMask ||| xdmaStatDescErrMask ||| (0x3E00 : UInt32) ||| (0xC000 : UInt32)

def xdmaStatC2hErrMask : UInt32 :=
  xdmaStatCommonErrMask ||| xdmaStatDescErrMask ||| (0x600 : UInt32)

def wbCountMask : UInt32 := 0x00ffffff

def wbErrMask : UInt32 := 0x80000000

def rxStatusEop : UInt32 := 1

/-- What is read from the device in a call of `engine_service`. -/
structure EngineReading where
  status : UInt32
  /-- `completed_desc_count` -/
  count : UInt32
  /-- The status words in the results of the transfer. -/
  resultStatus : ℕ → UInt32

/-- The part of `struct xdma_engine` that the queue uses, with the memory of the transfers. -/
structure EngineQueue (Id : Type) where
  dir : DmaDirection
  eopFlush : Bool
  /-- `transfer_list` -/
  list : List Id
  xfer : Id → QueueXfer
  running : Bool
  shutdownRequest : Bool
  shutdownIdle : Bool
  status : UInt32
  descDequeued : UInt32
  firstDesc : FirstDesc
  /-- The transfer whose first descriptor is in the registers, as long as the engine may run. -/
  deviceRun : Option Id

namespace EngineQueue

variable {Id : Type} [DecidableEq Id] (queue : EngineQueue Id)

def setXfer (id : Id) (xfer : QueueXfer) : EngineQueue Id :=
  { queue with xfer := Function.update queue.xfer id xfer }

/-- The error bits of the status word. -/
def errMask : UInt32 :=
  if queue.dir = .fromDevice then xdmaStatC2hErrMask
  else if queue.dir = .toDevice then xdmaStatH2cErrMask
  else 0

def xdmaEngineStop : EngineQueue Id := { queue with running := false, deviceRun := none }

/-- `engine_start`, by the transfer that is started. -/
def engineStart (status : UInt32) : Option Id × EngineQueue Id :=
  if queue.running then (none, queue)
  else
    match queue.list with
    | [] => (none, queue)
    | transfer :: _ =>
        (some transfer,
          { queue with
            shutdownRequest := false
            shutdownIdle := false
            descDequeued := 0
            status := status
            running := true
            firstDesc := (queue.xfer transfer).firstDesc
            deviceRun := some transfer })

/-- `transfer_queue`; the error is `none` if the transfer has been queued. -/
def transferQueue (offline : Bool) (status : UInt32) (transfer : Id) :
    Option EngineErrno × EngineQueue Id :=
  if (queue.xfer transfer).descNum = 0 then (some .EINVAL, queue)
  else if offline then (some .EBUSY, queue)
  else if queue.shutdownRequest then (some .EBUSY, queue)
  else
    let queue := queue.setXfer transfer { queue.xfer transfer with state := .submitted }
    let queue := { queue with list := queue.list ++ [transfer] }
    (none, if queue.running then queue else (queue.engineStart status).2)

/-- `transfer_abort`; it fails for a transfer without descriptors. -/
def transferAbort (transfer : Id) : Bool × EngineQueue Id :=
  if (queue.xfer transfer).descNum = 0 then (false, queue)
  else
    let queue :=
      if queue.list.head? = some transfer then { queue with list := queue.list.tail } else queue
    (true,
      if (queue.xfer transfer).state = .submitted then
        queue.setXfer transfer { queue.xfer transfer with state := .aborted }
      else queue)

/-- What `xdma_xfer_submit` does with a transfer that is neither complete nor failed when the
waiting is over. `engine_status_read` dumps the registers first, and fails if the identifier of the
engine is not `intact`; the transfer is not aborted then. -/
def timeOut (intact : Bool) (status : UInt32) (transfer : Id) : EngineQueue Id :=
  if !intact then queue
  else
    let (aborted, queue) := { queue with status := status }.transferAbort transfer
    if aborted then queue.xdmaEngineStop else queue

/-! ## Serving the engine -/

/-- The loop of `engine_service_transfer_list` along the list. -/
def serviceTransferList : List Id → EngineQueue Id → UInt32 → EngineQueue Id × UInt32
  | [], queue, descCompleted => ({ queue with list := [] }, descCompleted)
  | transfer :: rest, queue, descCompleted =>
      let xfer := queue.xfer transfer
      if xfer.descNum < descCompleted then
        let queue := queue.setXfer transfer { xfer with state := .completed }
        serviceTransferList rest
          { queue with descDequeued := queue.descDequeued + xfer.descNum }
          (descCompleted - xfer.descNum)
      else ({ queue with list := transfer :: rest }, descCompleted)

/-- `engine_service_final_transfer` -/
def serviceFinalTransfer (reading : EngineReading) (descCompleted : UInt32) : EngineQueue Id :=
  match queue.list with
  | [] => queue
  | transfer :: rest =>
      let xfer := queue.xfer transfer
      if queue.status &&& queue.errMask ≠ 0 then
        let queue := (queue.setXfer transfer { xfer with state := .failed }).xdmaEngineStop
        { queue with list := rest }
      else if descCompleted < xfer.descNum then
        if queue.eopFlush then
          let eop := xfer.eopRcved || (List.range descCompleted.toNat).any fun index =>
            reading.resultStatus index &&& rxStatusEop ≠ 0
          let xfer := { xfer with eopRcved := eop, descCmpl := xfer.descCmpl + descCompleted }
          if !eop then queue.setXfer transfer xfer
          else
            let queue := (queue.setXfer transfer { xfer with state := .completed }).xdmaEngineStop
            { queue with descDequeued := queue.descDequeued + xfer.descCmpl, list := rest }
        else
          let queue := queue.setXfer transfer
            { xfer with state := .failed, descCmpl := descCompleted }
          { queue with descDequeued := queue.descDequeued + xfer.descNum, list := rest }
      else
        let queue := queue.setXfer transfer
          { xfer with state := .completed, descCmpl := xfer.descNum }
        { queue with descDequeued := queue.descDequeued + xfer.descNum, list := rest }

/-- The transfers that are done, and the one that the engine has stopped on. -/
def serveQueue (reading : EngineReading) (descCompleted : UInt32) : EngineQueue Id :=
  let (queue, descCompleted) := serviceTransferList queue.list queue descCompleted
  queue.serviceFinalTransfer reading descCompleted

def engineServiceResume (reading : EngineReading) : EngineQueue Id :=
  if !queue.running then
    if queue.list ≠ [] then (queue.engineStart reading.status).2
    else if queue.shutdownRequest then { queue with shutdownIdle := true }
    else queue
  else if queue.list = [] then queue.xdmaEngineStop
  else queue

/-- The number of descriptors that `engine_service` goes by. -/
def servedCount (writeback : UInt32) (reading : EngineReading) : UInt32 :=
  if writeback &&& wbCountMask = 0 then reading.count else writeback &&& wbCountMask

/-- The status that `engine_service` has read, and the engine stopped if its run is over. -/
def serviceStatus (writeback : UInt32) (reading : EngineReading) : EngineQueue Id :=
  let descCount := writeback &&& wbCountMask
  let queue :=
    if descCount = 0 ∨ writeback &&& wbErrMask ≠ 0 then { queue with status := reading.status }
    else queue
  if queue.status &&& xdmaStatBusy = 0 ∨ (!queue.eopFlush ∧ descCount ≠ 0) then
    queue.xdmaEngineStop
  else queue

def engineService (writeback : UInt32) (reading : EngineReading) : EngineQueue Id :=
  if !queue.running then { queue with status := reading.status }
  else
    let queue := queue.serviceStatus writeback reading
    if servedCount writeback reading = 0 then queue
    else
      let queue := queue.serveQueue reading (servedCount writeback reading - queue.descDequeued)
      if queue.eopFlush then queue else queue.engineServiceResume reading

/-! ## What serving does to a short queue -/

/-- The settings of the engine are kept, and it has not been started in between. -/
structure KeepsRun (queue after : EngineQueue Id) : Prop where
  dir : after.dir = queue.dir
  eopFlush : after.eopFlush = queue.eopFlush
  shutdownRequest : after.shutdownRequest = queue.shutdownRequest
  shutdownIdle : after.shutdownIdle = true → queue.shutdownIdle = true ∨
    (queue.running = true ∧ queue.shutdownRequest = true)
  running : after.running = true → queue.running = true ∧ after.deviceRun = queue.deviceRun

variable {queue} {writeback : UInt32} {reading : EngineReading}

/-- The queue is left as it is, but for the number of descriptors that are done. -/
structure Waits (queue after : EngineQueue Id) : Prop extends KeepsRun queue after where
  list : after.list = queue.list
  state : ∀ id, (after.xfer id).state = (queue.xfer id).state
  descNum : ∀ id, (after.xfer id).descNum = (queue.xfer id).descNum
  descDequeued : after.descDequeued = queue.descDequeued

/-- The only transfer of the queue has come to its end. -/
structure Ends (queue : EngineQueue Id) (writeback : UInt32) (reading : EngineReading)
    (transfer : Id) (after : EngineQueue Id) : Prop extends KeepsRun queue after where
  wasRunning : queue.running = true
  list : after.list = []
  others : ∀ other, other ≠ transfer → after.xfer other = queue.xfer other
  state : (after.xfer transfer).state = .completed ∨ (after.xfer transfer).state = .failed
  reported : (after.xfer transfer).state = .completed → queue.eopFlush = true ∨
    (queue.xfer transfer).descNum ≤ servedCount writeback reading - queue.descDequeued
  stopped : after.running = true → queue.eopFlush = true

omit [DecidableEq Id] in
theorem waits_serviceStatus : Waits queue (queue.serviceStatus writeback reading) := by
  rw [serviceStatus]
  split <;> split <;>
    exact ⟨⟨rfl, rfl, rfl, Or.inl, by simp [xdmaEngineStop]⟩, rfl, fun _ => rfl, fun _ => rfl, rfl⟩

omit [DecidableEq Id] in
theorem xfer_serviceStatus : (queue.serviceStatus writeback reading).xfer = queue.xfer := by
  rw [serviceStatus]
  split <;> split <;> rfl

/-- What `engine_service_resume` does when nothing is left to be done. -/
structure Rests (queue after : EngineQueue Id) : Prop where
  dir : after.dir = queue.dir
  eopFlush : after.eopFlush = queue.eopFlush
  shutdownRequest : after.shutdownRequest = queue.shutdownRequest
  shutdownIdle : after.shutdownIdle = true →
    queue.shutdownIdle = true ∨ queue.shutdownRequest = true
  running : after.running = false
  list : after.list = []
  xfer : after.xfer = queue.xfer
  descDequeued : after.descDequeued = queue.descDequeued

omit [DecidableEq Id] in
theorem rests_engineServiceResume (empty : queue.list = []) :
    Rests queue (queue.engineServiceResume reading) := by
  rw [engineServiceResume]
  cases running : queue.running with
  | false =>
      rw [if_pos (by simp), if_neg (by simp [empty])]
      split
      · rename_i requested
        exact ⟨rfl, rfl, rfl, fun _ => Or.inr requested, rfl, empty, rfl, rfl⟩
      · exact ⟨rfl, rfl, rfl, Or.inl, running, empty, rfl, rfl⟩
  | true =>
      rw [if_neg (by simp), if_pos empty]
      exact ⟨rfl, rfl, rfl, Or.inl, rfl, empty, rfl, rfl⟩

theorem serveQueue_nil (descCompleted : UInt32) (empty : queue.list = []) :
    queue.serveQueue reading descCompleted = queue := by
  cases queue
  cases empty
  rfl

/-- Serving an engine without transfers changes nothing. -/
theorem engineService_nil (empty : queue.list = []) :
    Waits queue (queue.engineService writeback reading) := by
  have status := @waits_serviceStatus _ queue writeback reading
  have empty' := status.list.trans empty
  rw [engineService]
  split
  · exact ⟨⟨rfl, rfl, rfl, Or.inl, fun running => ⟨running, rfl⟩⟩, rfl, fun _ => rfl,
      fun _ => rfl, rfl⟩
  rename_i running
  have running' : queue.running = true := by simpa using running
  simp only
  split
  · exact status
  rw [serveQueue_nil _ empty']
  split
  · exact status
  have rests := @rests_engineServiceResume _ _ reading empty'
  refine ⟨⟨rests.dir.trans status.dir, rests.eopFlush.trans status.eopFlush,
    rests.shutdownRequest.trans status.shutdownRequest, fun idle => ?_, fun runs => ?_⟩,
    rests.list.trans empty.symm, ?_, ?_, rests.descDequeued.trans status.descDequeued⟩
  · rcases rests.shutdownIdle idle with before | requested
    · exact status.shutdownIdle before
    · exact Or.inr ⟨running', status.shutdownRequest.symm.trans requested⟩
  · rw [rests.running] at runs
    cases runs
  · intro id
    rw [rests.xfer]
    exact status.state id
  · intro id
    rw [rests.xfer]
    exact status.descNum id

section Single

variable {transfer : Id}

/-- What comes of a single transfer before the engine is resumed. -/
structure Served (queue : EngineQueue Id) (descCompleted : UInt32) (transfer : Id)
    (after : EngineQueue Id) : Prop where
  dir : after.dir = queue.dir
  eopFlush : after.eopFlush = queue.eopFlush
  shutdownRequest : after.shutdownRequest = queue.shutdownRequest
  shutdownIdle : after.shutdownIdle = queue.shutdownIdle
  running : after.running = true → queue.running = true ∧ after.deviceRun = queue.deviceRun
  others : ∀ other, other ≠ transfer → after.xfer other = queue.xfer other
  outcome : (queue.eopFlush = true ∧ after.list = [transfer] ∧
      (after.xfer transfer).state = (queue.xfer transfer).state ∧
      (after.xfer transfer).descNum = (queue.xfer transfer).descNum ∧
      after.descDequeued = queue.descDequeued) ∨
    (after.list = [] ∧
      ((after.xfer transfer).state = .completed ∧
        (queue.eopFlush = true ∨ (queue.xfer transfer).descNum ≤ descCompleted) ∨
       (after.xfer transfer).state = .failed))

theorem served_serveQueue (descCompleted : UInt32) (single : queue.list = [transfer]) :
    Served queue descCompleted transfer (queue.serveQueue reading descCompleted) := by
  have same : ∀ (other : Id) (xfer : QueueXfer), other ≠ transfer →
      Function.update queue.xfer transfer xfer other = queue.xfer other :=
    fun other xfer ne => Function.update_of_ne ne _ _
  simp only [serveQueue]
  rw [single, serviceTransferList]
  dsimp only
  split
  · -- more descriptors are done than the transfer has
    rename_i more
    simp only [serviceTransferList, serviceFinalTransfer, setXfer]
    refine ⟨rfl, rfl, rfl, rfl, fun runs => ⟨runs, rfl⟩, fun other ne => same other _ ne,
      Or.inr ⟨rfl, Or.inl ⟨?_, Or.inr (UInt32.le_of_lt more)⟩⟩⟩
    simp
  simp only [serviceFinalTransfer]
  split
  · -- the status word has an error
    refine ⟨rfl, rfl, rfl, rfl, by simp [xdmaEngineStop], fun other ne => same other _ ne,
      Or.inr ⟨rfl, Or.inr ?_⟩⟩
    simp [xdmaEngineStop, setXfer]
  split
  · rename_i fewer
    split
    · rename_i flush
      split
      · exact ⟨rfl, rfl, rfl, rfl, fun runs => ⟨runs, rfl⟩, fun other ne => same other _ ne,
          Or.inl ⟨flush, rfl, by simp [setXfer], by simp [setXfer], rfl⟩⟩
      · refine ⟨rfl, rfl, rfl, rfl, by simp [xdmaEngineStop], fun other ne => same other _ ne,
          Or.inr ⟨rfl, Or.inl ⟨?_, Or.inl flush⟩⟩⟩
        simp [xdmaEngineStop, setXfer]
    · refine ⟨rfl, rfl, rfl, rfl, fun runs => ⟨runs, rfl⟩, fun other ne => same other _ ne,
        Or.inr ⟨rfl, Or.inr ?_⟩⟩
      simp [setXfer]
  · rename_i enough
    refine ⟨rfl, rfl, rfl, rfl, fun runs => ⟨runs, rfl⟩, fun other ne => same other _ ne,
      Or.inr ⟨rfl, Or.inl ⟨?_, Or.inr (UInt32.not_lt.mp enough)⟩⟩⟩
    simp [setXfer]

/-- Serving an engine with a single transfer leaves it waiting or ends it. -/
theorem engineService_single (writeback : UInt32) (reading : EngineReading)
    (single : queue.list = [transfer]) :
    Waits queue (queue.engineService writeback reading) ∨
      Ends queue writeback reading transfer (queue.engineService writeback reading) := by
  have status := @waits_serviceStatus _ queue writeback reading
  have served := @served_serveQueue _ _ (queue.serviceStatus writeback reading) reading transfer
    (servedCount writeback reading - (queue.serviceStatus writeback reading).descDequeued)
    (status.list.trans single)
  rw [engineService]
  split
  · exact Or.inl ⟨⟨rfl, rfl, rfl, Or.inl, fun running => ⟨running, rfl⟩⟩, rfl, fun _ => rfl,
      fun _ => rfl, rfl⟩
  rename_i running
  have running' : queue.running = true := by simpa using running
  simp only
  split
  · exact Or.inl status
  generalize (queue.serviceStatus writeback reading).serveQueue reading
    (servedCount writeback reading - (queue.serviceStatus writeback reading).descDequeued) = left
    at served ⊢
  have keeps : KeepsRun queue left :=
    ⟨served.dir.trans status.dir, served.eopFlush.trans status.eopFlush,
      served.shutdownRequest.trans status.shutdownRequest,
      fun idle => status.shutdownIdle (served.shutdownIdle.symm.trans idle), fun runs =>
      ⟨running', (served.running runs).2.trans (status.running (served.running runs).1).2⟩⟩
  rcases served.outcome with ⟨flush, list, state, descNum, descDequeued⟩ | ⟨empty, outcome⟩
  · rw [if_pos (served.eopFlush.trans flush)]
    refine Or.inl ⟨keeps, list.trans single.symm, fun id => ?_, fun id => ?_,
      descDequeued.trans status.descDequeued⟩
    · by_cases own : id = transfer
      · rw [own, state, status.state]
      · rw [served.others id own, status.state]
    · by_cases own : id = transfer
      · rw [own, descNum, status.descNum]
      · rw [served.others id own, status.descNum]
  have others : ∀ other, other ≠ transfer → left.xfer other = queue.xfer other := by
    intro other ne
    rw [served.others other ne, xfer_serviceStatus]
  have state : (left.xfer transfer).state = .completed ∨ (left.xfer transfer).state = .failed :=
    outcome.imp And.left id
  have reported : (left.xfer transfer).state = .completed → queue.eopFlush = true ∨
      (queue.xfer transfer).descNum ≤ servedCount writeback reading - queue.descDequeued := by
    intro completed
    rcases outcome with ⟨-, count⟩ | failed
    · rwa [status.eopFlush, status.descDequeued, xfer_serviceStatus] at count
    · rw [failed] at completed
      cases completed
  split
  · rename_i flush
    exact Or.inr ⟨keeps, running', empty, others, state, reported,
      fun _ => keeps.eopFlush.symm.trans flush⟩
  · have rests := @rests_engineServiceResume _ _ reading empty
    refine Or.inr ⟨⟨rests.dir.trans keeps.dir, rests.eopFlush.trans keeps.eopFlush,
      rests.shutdownRequest.trans keeps.shutdownRequest, fun idle => ?_, fun runs => ?_⟩,
      running', rests.list, ?_, ?_, ?_, fun runs => ?_⟩
    · rcases rests.shutdownIdle idle with before | requested
      · exact keeps.shutdownIdle before
      · exact Or.inr ⟨running', keeps.shutdownRequest.symm.trans requested⟩
    · exact absurd (rests.running.symm.trans runs) Bool.false_ne_true
    · rwa [rests.xfer]
    · rwa [rests.xfer]
    · rwa [rests.xfer]
    · exact absurd (rests.running.symm.trans runs) Bool.false_ne_true

end Single

/-! ## Queueing and aborting the only transfer -/

section Only

variable {offline : Bool} {status : UInt32} {transfer : Id}

theorem transferQueue_refused {err : EngineErrno}
    (refused : (queue.transferQueue offline status transfer).1 = some err) :
    (queue.transferQueue offline status transfer).2 = queue := by
  rw [transferQueue] at refused ⊢
  split_ifs at refused ⊢ <;> rfl

/-- A transfer that has been queued as the only one; an idle engine is started on it. -/
structure Queued (queue : EngineQueue Id) (transfer : Id) (after : EngineQueue Id) : Prop where
  eopFlush : after.eopFlush = queue.eopFlush
  nonempty : (queue.xfer transfer).descNum ≠ 0
  notRequested : queue.shutdownRequest = false
  list : after.list = [transfer]
  state : (after.xfer transfer).state = .submitted
  descNum : (after.xfer transfer).descNum = (queue.xfer transfer).descNum
  firstDesc : (after.xfer transfer).firstDesc = (queue.xfer transfer).firstDesc
  shutdownRequest : after.shutdownRequest = false
  shutdownIdle : after.shutdownIdle = true → queue.shutdownIdle = true
  started : queue.running = false →
    after.running = true ∧ after.deviceRun = some transfer ∧
      after.firstDesc = (after.xfer transfer).firstDesc ∧ after.descDequeued = 0

theorem queued_transferQueue (empty : queue.list = [])
    (accepted : (queue.transferQueue offline status transfer).1 = none) :
    Queued queue transfer (queue.transferQueue offline status transfer).2 := by
  rw [transferQueue] at accepted ⊢
  split_ifs at accepted ⊢ with none _ requested
  have notRequested : queue.shutdownRequest = false := by simpa using requested
  cases running : queue.running with
  | true =>
      simp only [setXfer, running, if_true, empty, List.nil_append]
      exact ⟨rfl, none, notRequested, rfl, by simp, by simp, by simp [QueueXfer.firstDesc],
        notRequested, id, fun stopped => absurd (stopped.symm.trans running) Bool.false_ne_true⟩
  | false =>
      simp only [setXfer, running, engineStart, empty, List.nil_append, Bool.false_eq_true,
        if_false]
      exact ⟨rfl, none, notRequested, rfl, by simp, by simp, by simp [QueueXfer.firstDesc], rfl,
        fun idle => absurd idle Bool.false_ne_true, fun _ => ⟨rfl, rfl, rfl, rfl⟩⟩

/-- A transfer that is given up when it is the only one leaves an empty queue behind. -/
structure GivenUp (queue : EngineQueue Id) (after : EngineQueue Id) : Prop where
  eopFlush : after.eopFlush = queue.eopFlush
  shutdownRequest : after.shutdownRequest = queue.shutdownRequest
  shutdownIdle : after.shutdownIdle = queue.shutdownIdle
  list : after.list = []
  running : after.running = false

theorem givenUp_timeOut (status : UInt32) (single : queue.list = [transfer])
    (nonempty : (queue.xfer transfer).descNum ≠ 0) :
    GivenUp queue (queue.timeOut true status transfer) := by
  have head : queue.list.head? = some transfer := by rw [single]; rfl
  have tail : queue.list.tail = [] := by rw [single]; rfl
  simp only [timeOut, transferAbort]
  rw [if_neg (by decide), if_neg nonempty, if_pos head]
  simp only [if_true]
  split <;> exact ⟨rfl, rfl, rfl, tail, rfl⟩

end Only

end EngineQueue

end Acai
