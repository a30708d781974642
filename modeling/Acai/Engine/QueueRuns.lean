import Acai.Engine.Queue
import Acai.Lib.Runs

/-!
# Threads that share an engine

Threads that call `xdma_xfer_submit` for one engine take turns by `engine->desc_lock`:
a thread holds it until its request is over, also while it waits for a transfer. The
interrupt and the polling thread serve the engine at any time, with whatever the device
reports, a waiting thread may be woken at any time, and the device may be taken offline
and online in between.

As long as the engine can be identified when a waiting is given up, the queue holds no
transfer but the one that the thread with the lock waits for. It never holds a transfer
whose request has been freed, and every transfer finds the engine idle and is started
at once (`queue_safe`).
-/

namespace Acai

/-- Where a thread is in `xdma_xfer_submit` once it has the lock. Its request keeps its transfers
in one place, which is used again for every transfer. -/
inductive SubmitPhase (Id : Type) where
  /-- It makes and queues the next transfer, or is done. -/
  | building (request : Id)
  | waiting (request : Id)
  /-- It has an error and gives up the lock. -/
  | leaving (request : Id)
  deriving DecidableEq

def SubmitPhase.request {Id : Type} : SubmitPhase Id → Id
  | building request => request
  | waiting request => request
  | leaving request => request

structure Submitters (Thread Id : Type) where
  queue : EngineQueue Id
  /-- `XDEV_FLAG_OFFLINE` -/
  offline : Bool
  /-- The thread that holds `desc_lock`. -/
  holder : Option (Thread × SubmitPhase Id)
  /-- The requests that are allocated. -/
  live : Id → Bool

inductive SubmitEvent (Thread Id : Type) where
  /-- A thread has allocated a request, and takes the lock if it is free. -/
  | begin (thread : Thread) (request : Id)
  | queue (thread : Thread) (descNum : UInt32) (descBus : UInt64) (status : UInt32)
  /-- A waiting thread goes on; its transfer may have ended or not. -/
  | wake (thread : Thread) (intact : Bool) (status : UInt32)
  /-- A thread gives up the lock and frees its request. -/
  | finish (thread : Thread)
  | service (writeback : UInt32) (reading : EngineReading)
  /-- The parts of `xdma_device_offline` and of `xdma_device_online`. -/
  | flagOffline
  | shutdownEngine
  | reopenEngine
  | clearOffline

namespace Submitters

variable {Thread Id : Type} [DecidableEq Thread] [DecidableEq Id]

/-- The phase of a thread, if it holds the lock. -/
def phase (state : Submitters Thread Id) (thread : Thread) : Option (SubmitPhase Id) :=
  match state.holder with
  | none => none
  | some (holder, phase) => if holder = thread then some phase else none

def begin (state : Submitters Thread Id) (thread : Thread) (request : Id) : Submitters Thread Id :=
  if state.holder.isNone ∧ state.live request = false then
    { state with
      holder := some (thread, .building request)
      live := Function.update state.live request true }
  else state

/-- `transfer_init` clears the transfer, and `transfer_queue` queues it. -/
def queueTransfer (state : Submitters Thread Id) (thread : Thread) (descNum : UInt32)
    (descBus : UInt64) (status : UInt32) : Submitters Thread Id :=
  match state.phase thread with
  | some (.building request) =>
      let queue := state.queue.setXfer request (.made descNum descBus)
      let (err, queue) := queue.transferQueue state.offline status request
      { state with
        queue := queue
        holder := some (thread, if err.isSome then .leaving request else .waiting request) }
  | _ => state

def wake (state : Submitters Thread Id) (thread : Thread) (intact : Bool) (status : UInt32) :
    Submitters Thread Id :=
  match state.phase thread with
  | some (.waiting request) =>
      match (state.queue.xfer request).state with
      | .completed => { state with holder := some (thread, .building request) }
      | .failed => { state with holder := some (thread, .leaving request) }
      | _ =>
          { state with
            queue := state.queue.timeOut intact status request
            holder := some (thread, .leaving request) }
  | _ => state

def finish (state : Submitters Thread Id) (thread : Thread) : Submitters Thread Id :=
  match state.phase thread with
  | some (.building request) | some (.leaving request) =>
      { state with holder := none, live := Function.update state.live request false }
  | _ => state

def step (state : Submitters Thread Id) : SubmitEvent Thread Id → Submitters Thread Id
  | .begin thread request => state.begin thread request
  | .queue thread descNum descBus status => state.queueTransfer thread descNum descBus status
  | .wake thread intact status => state.wake thread intact status
  | .finish thread => state.finish thread
  | .service writeback reading =>
      { state with queue := state.queue.engineService writeback reading }
  | .flagOffline => { state with offline := true }
  | .shutdownEngine =>
      { state with queue := { state.queue with shutdownRequest := true }.xdmaEngineStop }
  | .reopenEngine => { state with queue := { state.queue with shutdownRequest := false } }
  | .clearOffline => { state with offline := false }

/-- An engine after its start, which no thread uses. -/
def start (dir : DmaDirection) (eopFlush : Bool) (xfer : Id → QueueXfer) (status : UInt32) :
    Submitters Thread Id where
  queue :=
    { dir := dir
      eopFlush := eopFlush
      list := []
      xfer := xfer
      running := false
      shutdownRequest := false
      shutdownIdle := false
      status := status
      descDequeued := 0
      firstDesc := ⟨0, 0, 0⟩
      deviceRun := none }
  offline := false
  holder := none
  live := fun _ => false

/-! ## The invariant -/

structure Safe (state : Submitters Thread Id) : Prop where
  queued : state.queue.list = [] ∨ ∃ thread request,
    state.holder = some (thread, .waiting request) ∧ state.queue.list = [request] ∧
      (state.queue.xfer request).state = .submitted ∧ (state.queue.xfer request).descNum ≠ 0
  ended : ∀ thread request, state.holder = some (thread, .waiting request) →
    state.queue.list = [] → (state.queue.xfer request).state = .completed ∨
      (state.queue.xfer request).state = .failed
  live : ∀ thread phase, state.holder = some (thread, phase) → state.live phase.request = true
  shutdown : state.queue.shutdownRequest = true → state.queue.running = false
  idle : state.queue.shutdownIdle = false
  runs : state.queue.eopFlush = false → state.queue.running = true → ∃ request,
    state.queue.list = [request] ∧ state.queue.deviceRun = some request ∧
      state.queue.descDequeued = 0

omit [DecidableEq Thread] [DecidableEq Id] in
theorem safe_start (dir : DmaDirection) (eopFlush : Bool) (xfer : Id → QueueXfer)
    (status : UInt32) :
    (start dir eopFlush xfer status : Submitters Thread Id).Safe := by
  refine ⟨Or.inl rfl, ?_, ?_, ?_, rfl, ?_⟩ <;> simp [start]

variable {state : Submitters Thread Id} {thread : Thread}

omit [DecidableEq Id] in
theorem holder_of_phase {phase : SubmitPhase Id} (inPhase : state.phase thread = some phase) :
    state.holder = some (thread, phase) := by
  rw [Submitters.phase] at inPhase
  split at inPhase
  · cases inPhase
  · rename_i holder other held
    split at inPhase
    · rename_i same
      rw [held, same, Option.some.inj inPhase]
    · cases inPhase

omit [DecidableEq Thread] [DecidableEq Id] in
/-- The queue is empty unless its thread waits. -/
theorem Safe.empty {phase : SubmitPhase Id} (safe : state.Safe)
    (held : state.holder = some (thread, phase))
    (notWaiting : ∀ request, phase ≠ .waiting request) : state.queue.list = [] := by
  rcases safe.queued with empty | ⟨other, request, waits, -⟩
  · exact empty
  · rw [held] at waits
    cases waits
    exact absurd rfl (notWaiting request)

omit [DecidableEq Thread] [DecidableEq Id] in
theorem Safe.notRunning (safe : state.Safe) (noFlush : state.queue.eopFlush = false)
    (empty : state.queue.list = []) : state.queue.running = false := by
  cases running : state.queue.running with
  | false => rfl
  | true =>
      rcases safe.runs noFlush running with ⟨request, single, -⟩
      rw [empty] at single
      cases single

omit [DecidableEq Thread] [DecidableEq Id] in
/-- A state in which no thread waits. -/
theorem safe_of_empty (empty : state.queue.list = [])
    (noneWaits : ∀ thread request, state.holder ≠ some (thread, .waiting request))
    (live : ∀ thread phase, state.holder = some (thread, phase) →
      state.live phase.request = true)
    (shutdown : state.queue.shutdownRequest = true → state.queue.running = false)
    (idle : state.queue.shutdownIdle = false)
    (stopped : state.queue.eopFlush = false → state.queue.running = false) : state.Safe :=
  ⟨Or.inl empty, fun thread request held _ => absurd held (noneWaits thread request), live,
    shutdown, idle, fun noFlush running =>
      absurd ((stopped noFlush).symm.trans running) Bool.false_ne_true⟩

omit [DecidableEq Thread] [DecidableEq Id] in
/-- The thread with the lock moves on, and the queue is empty. -/
theorem Safe.move (safe : state.Safe) {phase next : SubmitPhase Id} {queue : EngineQueue Id}
    (held : state.holder = some (thread, phase)) (same : next.request = phase.request)
    (notWaiting : ∀ request, next ≠ .waiting request) (empty : queue.list = [])
    (shutdown : queue.shutdownRequest = true → queue.running = false)
    (idle : queue.shutdownIdle = false)
    (stopped : queue.eopFlush = false → queue.running = false) :
    Safe { state with queue := queue, holder := some (thread, next) } := by
  refine safe_of_empty empty (fun other request waits => ?_) (fun other phase held' => ?_)
    shutdown idle stopped
  · exact notWaiting request (congrArg Prod.snd (Option.some.inj waits))
  · cases held'
    rw [same]
    exact safe.live _ _ held

omit [DecidableEq Thread] in
theorem Safe.begin (safe : state.Safe) (request : Id) : (state.begin thread request).Safe := by
  rw [Submitters.begin]
  split
  · rename_i free
    have none : state.holder = none := Option.isNone_iff_eq_none.mp free.1
    have empty : state.queue.list = [] := by
      rcases safe.queued with empty | ⟨other, request, waits, -⟩
      · exact empty
      · rw [none] at waits
        cases waits
    refine safe_of_empty empty (fun other waited waits => by cases waits) (fun _ _ held => ?_)
      safe.shutdown safe.idle fun noFlush => safe.notRunning noFlush empty
    cases held
    exact Function.update_self ..
  · exact safe

theorem Safe.queueTransfer (safe : state.Safe) (descNum : UInt32) (descBus : UInt64)
    (status : UInt32) : (state.queueTransfer thread descNum descBus status).Safe := by
  rw [Submitters.queueTransfer]
  split
  · rename_i request building
    have held := holder_of_phase building
    have empty := safe.empty held fun _ same => by cases same
    have emptyCleared : (state.queue.setXfer request (.made descNum descBus)).list = [] := empty
    rcases result : (state.queue.setXfer request (.made descNum descBus)).transferQueue
      state.offline status request with ⟨err, queue⟩
    cases err with
    | some err =>
        obtain rfl : queue = state.queue.setXfer request (.made descNum descBus) := by
          have kept := EngineQueue.transferQueue_refused (congrArg Prod.fst result)
          rwa [result] at kept
        simp only [result, Option.isSome_some, if_true]
        exact safe.move held rfl (fun _ same => by cases same) empty safe.shutdown safe.idle
          fun noFlush => safe.notRunning noFlush empty
    | none =>
        have queued := EngineQueue.queued_transferQueue emptyCleared (congrArg Prod.fst result)
        rw [result] at queued
        simp only [result, Option.isSome_none, Bool.false_eq_true, if_false]
        refine ⟨Or.inr ⟨thread, request, rfl, queued.list, queued.state, ?_⟩,
          fun _ _ _ noTransfer => ?_, fun _ _ held' => ?_, fun requested => ?_, ?_,
          fun noFlush _ => ⟨request, queued.list, ?_⟩⟩
        · rw [queued.descNum]
          exact queued.nonempty
        · rw [queued.list] at noTransfer
          cases noTransfer
        · cases held'
          exact safe.live _ (.building request) held
        · rw [queued.shutdownRequest] at requested
          cases requested
        · cases idle : queue.shutdownIdle with
          | false => rfl
          | true => exact (queued.shutdownIdle idle).symm.trans safe.idle
        · have stopped := safe.notRunning (queued.eopFlush.symm.trans noFlush) empty
          rcases queued.started stopped with ⟨-, device, -, dequeued⟩
          exact ⟨device, dequeued⟩
  · exact safe

theorem Safe.wake (safe : state.Safe) {intact : Bool} (identified : intact = true)
    (status : UInt32) : (state.wake thread intact status).Safe := by
  subst identified
  rw [Submitters.wake]
  split
  · rename_i request waiting
    have held := holder_of_phase waiting
    have ended : state.queue.list = [] →
        ∀ next : SubmitPhase Id, next.request = request → (∀ other, next ≠ .waiting other) →
          Safe { state with holder := some (thread, next) } :=
      fun empty next same notWaiting => safe.move held same notWaiting empty safe.shutdown
        safe.idle fun noFlush => safe.notRunning noFlush empty
    rcases safe.queued with empty | ⟨other, waited, waits, single, submitted, nonempty⟩
    · rcases safe.ended _ _ held empty with completed | failed
      · rw [completed]
        exact ended empty (.building request) rfl fun _ same => by cases same
      · rw [failed]
        exact ended empty (.leaving request) rfl fun _ same => by cases same
    · rw [held] at waits
      cases waits
      rw [submitted]
      have given := EngineQueue.givenUp_timeOut status single nonempty
      exact safe.move held rfl (fun _ same => by cases same) given.list (fun _ => given.running)
        (given.shutdownIdle.trans safe.idle) fun _ => given.running
  · exact safe

theorem Safe.finish (safe : state.Safe) : (state.finish thread).Safe := by
  have freed : ∀ phase, state.phase thread = some phase → (∀ request, phase ≠ .waiting request) →
      ({ state with
        holder := none
        live := Function.update state.live phase.request false } : Submitters Thread Id).Safe := by
    intro phase inPhase notWaiting
    have empty := safe.empty (holder_of_phase inPhase) notWaiting
    exact safe_of_empty empty (fun _ _ held => by cases held) (fun _ _ held => by cases held)
      safe.shutdown safe.idle fun noFlush => safe.notRunning noFlush empty
  rw [Submitters.finish]
  split
  · exact freed (.building _) ‹_› fun _ same => by cases same
  · exact freed (.leaving _) ‹_› fun _ same => by cases same
  · exact safe

omit [DecidableEq Thread] [DecidableEq Id] in
/-- What serving does not undo. -/
theorem Safe.keepsRun (safe : state.Safe) {after : EngineQueue Id}
    (keeps : EngineQueue.KeepsRun state.queue after) :
    (after.shutdownRequest = true → after.running = false) ∧ after.shutdownIdle = false := by
  constructor
  · intro requested
    have stopped := safe.shutdown (keeps.shutdownRequest.symm.trans requested)
    cases running : after.running with
    | false => rfl
    | true => exact absurd (stopped.symm.trans (keeps.running running).1) Bool.false_ne_true
  · cases idle : after.shutdownIdle with
    | false => rfl
    | true =>
        rcases keeps.shutdownIdle idle with before | ⟨running, requested⟩
        · exact before.symm.trans safe.idle
        · exact absurd ((safe.shutdown requested).symm.trans running) Bool.false_ne_true

omit [DecidableEq Thread] [DecidableEq Id] in
theorem Safe.waits (safe : state.Safe) {after : EngineQueue Id}
    (waits : EngineQueue.Waits state.queue after) : Safe { state with queue := after } := by
  rcases safe.keepsRun waits.toKeepsRun with ⟨shutdown, idle⟩
  refine ⟨?_, fun other request held empty => ?_, safe.live, shutdown, idle,
    fun noFlush running => ?_⟩
  · rcases safe.queued with empty | ⟨other, request, held, single, submitted, nonempty⟩
    · exact Or.inl (waits.list.trans empty)
    · exact Or.inr ⟨other, request, held, waits.list.trans single,
        (waits.state request).trans submitted, (waits.descNum request).trans_ne nonempty⟩
  · exact (waits.state request).symm ▸ safe.ended other request held (waits.list.symm.trans empty)
  · rcases waits.running running with ⟨wasRunning, sameRun⟩
    rcases safe.runs (waits.eopFlush.symm.trans noFlush) wasRunning with
      ⟨request, single, run, dequeued⟩
    exact ⟨request, waits.list.trans single, sameRun.trans run,
      waits.descDequeued.trans dequeued⟩

omit [DecidableEq Thread] in
theorem Safe.service (safe : state.Safe) (writeback : UInt32) (reading : EngineReading) :
    Safe { state with queue := state.queue.engineService writeback reading } := by
  rcases safe.queued with empty | ⟨waiter, request, held, single, -⟩
  · exact safe.waits (EngineQueue.engineService_nil empty)
  rcases EngineQueue.engineService_single writeback reading single with waits | ends
  · exact safe.waits waits
  · rcases safe.keepsRun ends.toKeepsRun with ⟨shutdown, idle⟩
    refine ⟨Or.inl ends.list, fun other waited held' _ => ?_, safe.live, shutdown, idle,
      fun noFlush running => ?_⟩
    · rw [show state.holder = _ from held] at held'
      cases held'
      exact ends.state
    · have flush := ends.stopped running
      rw [← ends.eopFlush] at flush
      exact absurd (noFlush.symm.trans flush) Bool.false_ne_true

/-- The engine can be identified when a waiting is given up. -/
def Identified : SubmitEvent Thread Id → Prop
  | .wake _ intact _ => intact = true
  | _ => True

theorem Safe.step (safe : state.Safe) {event : SubmitEvent Thread Id}
    (identified : Identified event) : (state.step event).Safe := by
  cases event with
  | begin thread request => exact safe.begin request
  | queue thread descNum descBus status => exact safe.queueTransfer descNum descBus status
  | wake thread intact status => exact safe.wake identified status
  | finish thread => exact safe.finish
  | service writeback reading => exact safe.service writeback reading
  | flagOffline => exact ⟨safe.queued, safe.ended, safe.live, safe.shutdown, safe.idle, safe.runs⟩
  | shutdownEngine =>
      exact ⟨safe.queued, safe.ended, safe.live, fun _ => rfl, safe.idle,
        fun _ running => absurd running Bool.false_ne_true⟩
  | reopenEngine =>
      exact ⟨safe.queued, safe.ended, safe.live, fun requested => absurd requested
        Bool.false_ne_true, safe.idle, safe.runs⟩
  | clearOffline =>
      exact ⟨safe.queued, safe.ended, safe.live, safe.shutdown, safe.idle, safe.runs⟩

theorem safe_after {events : List (SubmitEvent Thread Id)}
    (identified : ∀ event ∈ events, Identified event) (safe : state.Safe) :
    (Runs.after step state events).Safe :=
  Runs.after_of_kept (fun event event_mem _ now => now.step (identified event event_mem)) safe

/-! ## What holds in every run -/

/-- Two threads take turns; the transfer of the second one does not end. -/
def twoSubmitters : List (SubmitEvent Bool ℕ) :=
  [.begin true 0, .begin false 1, .queue true 3 0x1000 1, .service 0 ⟨1, 3, fun _ => 0⟩,
    .wake true true 0, .finish true, .begin false 1, .queue false 2 0x1020 1,
    .service 0 ⟨1, 0, fun _ => 0⟩]

def clearXfer (_ : ℕ) : QueueXfer := ⟨.new, 0, 0, false, 0, 0⟩

theorem twoSubmitters_identified : ∀ event ∈ twoSubmitters, Identified event := by
  simp [twoSubmitters, Identified]

/-- The identification is needed: if it fails when a transfer is given up, the thread frees the
request while the queue still holds the transfer. -/
theorem queue_dangles (dir : DmaDirection) (eopFlush : Bool) (xfer : Id → QueueXfer)
    (status : UInt32) {events : List (SubmitEvent Thread Id)}
    (identified : ∀ event ∈ events, Identified event) {request : Id}
    (waits : (Runs.after step (start dir eopFlush xfer status) events).holder =
      some (thread, .waiting request))
    (submitted : ((Runs.after step (start dir eopFlush xfer status) events).queue.xfer
      request).state = .submitted) (laterStatus : UInt32) :
    let state := Runs.after step (start dir eopFlush xfer status)
      (events ++ [.wake thread false laterStatus, .finish thread])
    state.queue.list = [request] ∧ state.live request = false := by
  have safe := safe_after identified
    (@safe_start Thread _ dir eopFlush xfer status)
  rw [Runs.after_append]
  generalize Runs.after step (start dir eopFlush xfer status) events = state
    at safe waits submitted ⊢
  have single : state.queue.list = [request] := by
    rcases safe.queued with empty | ⟨other, waited, held, single, -⟩
    · rcases safe.ended _ _ waits empty with ended | ended <;>
        · rw [submitted] at ended
          cases ended
    · rw [waits] at held
      cases held
      exact single
  have waiting : state.phase thread = some (.waiting request) := by
    rw [phase, waits]
    exact if_pos rfl
  have woken : state.wake thread false laterStatus =
      { state with holder := some (thread, .leaving request) } := by
    rw [Submitters.wake, waiting]
    simp only [submitted]
    rfl
  simp only [Runs.after_cons, Runs.after_nil, step, woken]
  have leaving : phase { state with holder := some (thread, .leaving request) } thread =
      some (.leaving request) := if_pos rfl
  rw [finish, leaving]
  exact ⟨single, Function.update_self ..⟩

theorem queue_dangles_twoSubmitters :
    let state := Runs.after step (start .toDevice false clearXfer 0)
      (twoSubmitters ++ [.wake false false 0, .finish false])
    state.queue.list = [1] ∧ state.live 1 = false :=
  queue_dangles .toDevice false clearXfer 0 twoSubmitters_identified (by decide) (by decide) 0

end Submitters

end Acai
