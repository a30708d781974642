import Acai.Engine.Transfer
import Mathlib.Algebra.BigOperators.Group.List.Basic

/-!
# Submitting a scatterlist to an engine

`xdma_xfer_submit` cuts the list into blocks and hands the blocks to the engine, one
transfer after another, as many at a time as fit into the rest of the ring. It waits
for a transfer before it makes the next one. How a transfer ends is decided by the
device, by the waiting thread and by whoever takes the engine down, and is a parameter.

The result is the number of bytes of the transfers that are complete, if there is one,
and an error otherwise. On an engine with plain addresses these bytes are the first
ones of the list, and whatever else was started lies behind them
(`xdmaXferSubmit_carries`).
-/

namespace Acai

/-- The errors of the functions of the engine. -/
inductive EngineErrno where
  /-- `EIO` -/
  | ioError
  | ENOMEM
  | EBUSY
  | EINVAL
  | ERESTARTSYS
  deriving DecidableEq

def EngineErrno.code : EngineErrno → ℤ
  | ioError => 5
  | ENOMEM => 12
  | EBUSY => 16
  | EINVAL => 22
  | ERESTARTSYS => 512

theorem EngineErrno.code_pos (err : EngineErrno) : 0 < err.code := by
  cases err <;> decide

/-- How a transfer ends for the thread that has submitted it. -/
inductive TransferEnd where
  /-- `transfer_queue` returns an error. -/
  | refused (err : EngineErrno)
  /-- `TRANSFER_STATE_COMPLETED`, with `desc_cmpl` and the lengths that were written back. -/
  | completed (descCmpl : ℕ) (lengths : ℕ → UInt32)
  /-- `TRANSFER_STATE_FAILED` -/
  | failed
  /-- Any other state when the waiting is over. -/
  | pending

def TransferEnd.isCompleted : TransferEnd → Bool
  | completed _ _ => true
  | _ => false

theorem completed_of_isCompleted {ending : TransferEnd} (complete : ending.isCompleted = true) :
    ∃ descCmpl lengths, ending = .completed descCmpl lengths := by
  cases ending with
  | completed descCmpl lengths => exact ⟨descCmpl, lengths, rfl⟩
  | _ => cases complete

/-- A transfer that was handed to `transfer_queue`: what the engine finds in its descriptors, and
how it ends. -/
structure SubmittedTransfer where
  moves : List DescMove
  ending : TransferEnd

namespace SubmittedTransfer

def bytes (transfer : SubmittedTransfer) : List (UInt64 × UInt64) :=
  transfer.moves.flatMap DescMove.bytes

/-- The bytes of the complete transfers. -/
def completeBytes (transfers : List SubmittedTransfer) : List (UInt64 × UInt64) :=
  (transfers.filter fun transfer => transfer.ending.isCompleted).flatMap bytes

/-- The bytes of the others. -/
def stoppedBytes (transfers : List SubmittedTransfer) : List (UInt64 × UInt64) :=
  (transfers.filter fun transfer => !transfer.ending.isCompleted).flatMap bytes

end SubmittedTransfer

/-- What `xdma_xfer_submit` works on. -/
structure SubmitState where
  engine : DescEngine
  request : XdmaRequest
  nents : ℕ
  done : ℤ
  /-- `sgt->nents` -/
  sgtNents : ℕ
  /-- The number of entries of every call of `pci_unmap_sg`. -/
  unmaps : List ℕ
  /-- The transfers in their order. -/
  transfers : List SubmittedTransfer

namespace SubmitState

/-- `transfer_destroy` -/
def transferDestroy (state : SubmitState) (xfer : XdmaTransfer) (lastInRequest needUnmap : Bool) :
    SubmitState :=
  let cleared := swept (fun _ _ _ => XdmaDesc.zero) (fun _ _ => ()) (List.range xfer.descNum)
    xfer.descIndex () state.engine.desc
  let state := { state with engine := { state.engine with desc := cleared } }
  if lastInRequest ∧ needUnmap ∧ state.sgtNents ≠ 0 then
    { state with unmaps := state.unmaps ++ [state.sgtNents], sgtNents := 0 }
  else state

/-- The bytes that a complete transfer counts for. -/
def doneBytes (engine : DescEngine) (xfer : XdmaTransfer) (descCmpl : ℕ)
    (lengths : ℕ → UInt32) : ℕ :=
  if engine.WritesResults then ((List.range descCmpl).map fun index => (lengths index).toNat).sum
  else xfer.len.toNat

/-- `engine->desc_used -= xfer->desc_num` and `transfer_destroy`. -/
def retire (state : SubmitState) (xfer : XdmaTransfer) (lastInRequest needUnmap : Bool) :
    SubmitState :=
  let engine := { state.engine with descUsed := state.engine.descUsed - xfer.descNum }
  { state with engine := engine }.transferDestroy xfer lastInRequest needUnmap

/-- One iteration of the loop of `xdma_xfer_submit`: the state, and `rv`. -/
def submitTransfer (dmaMapped : Bool) (ending : TransferEnd) (state : SubmitState) :
    SubmitState × ℤ :=
  let (engine, request, xfer) := state.engine.transferInit state.request
  let nents := state.nents - xfer.descNum
  let lastInRequest : Bool := nents = 0
  let started : SubmitState :=
    { state with
      engine := engine
      request := request
      nents := nents
      transfers := state.transfers ++
        [⟨((engine.read xfer.descBus).getD []).map XdmaDesc.move, ending⟩] }
  match ending with
  | .refused err => (started, -err.code)
  | .completed descCmpl lengths =>
      let counted : SubmitState :=
        { started with
          done := started.done + doneBytes engine xfer descCmpl lengths
          nents := if engine.WritesResults ∧ engine.eopFlush then 0 else nents }
      (counted.retire xfer lastInRequest !dmaMapped, 0)
  | .failed => (started.retire xfer lastInRequest !dmaMapped, -EngineErrno.ioError.code)
  | .pending => (started.retire xfer lastInRequest !dmaMapped, -EngineErrno.ERESTARTSYS.code)

/-- The loop of `xdma_xfer_submit`, where `index` is `tfer_idx`; `none` if the fuel is used up. -/
def submitLoop (dmaMapped : Bool) (endings : ℕ → TransferEnd) :
    ℕ → ℕ → SubmitState → ℤ → Option (SubmitState × ℤ)
  | 0, _, _, _ => none
  | fuel + 1, index, state, rv =>
      if state.nents = 0 then some (state, rv)
      else
        let (state, rv) := state.submitTransfer dmaMapped (endings index)
        if rv < 0 then some (state, rv)
        else submitLoop dmaMapped endings fuel (index + 1) state rv

/-- What follows `unmap_sgl`. -/
def unmapSgl (state : SubmitState) (dmaMapped : Bool) (origNents : ℕ) : SubmitState :=
  if !dmaMapped ∧ state.sgtNents ≠ 0 then
    { state with unmaps := state.unmaps ++ [origNents], sgtNents := 0 }
  else state

end SubmitState

/-- An engine of a device, as `xdma_xfer_submit` finds it. -/
structure EngineSlot where
  /-- `magic` is `MAGIC_ENGINE`. -/
  magic : Bool
  engine : DescEngine

structure SubmitDevice where
  /-- `debug_check_dev_hndl` finds the device. -/
  listed : Bool
  offline : Bool
  h2cChannelMax : ℕ
  c2hChannelMax : ℕ
  engineH2c : ℕ → EngineSlot
  engineC2h : ℕ → EngineSlot

/-- The arguments of `xdma_xfer_submit`, and what the kernel does in the call. -/
structure SubmitCall where
  channel : ℕ
  write : Bool
  epAddr : UInt64
  dmaMapped : Bool
  origNents : ℕ
  /-- The entries that `pci_map_sg` makes, or those of a list that is mapped already. -/
  mapped : List DmaEntry
  /-- There is memory for the request. -/
  alloc : Bool
  blenMax : DescBlenMax
  endings : ℕ → TransferEnd

structure SubmitOutcome where
  ret : ℤ
  transfers : List SubmittedTransfer
  unmaps : List ℕ
  /-- The engine, if it was worked on. -/
  engine : Option DescEngine

namespace SubmitOutcome

/-- A call that returns before the list is mapped. -/
def refused (err : EngineErrno) : SubmitOutcome := ⟨-err.code, [], [], none⟩

end SubmitOutcome

namespace SubmitCall

variable (call : SubmitCall)

def dir : DmaDirection := if call.write then .toDevice else .fromDevice

/-- `xdma_xfer_submit` from `xdma_init_request` on. -/
def run (engine : DescEngine) : Option SubmitOutcome :=
  match xdmaInitRequest call.blenMax call.alloc call.mapped call.epAddr with
  | none =>
      let unmaps := if call.dmaMapped then [] else [call.origNents]
      some ⟨-EngineErrno.ENOMEM.code, [], unmaps, some engine⟩
  | some request =>
      let start : SubmitState :=
        ⟨engine, request, request.swDescCnt, 0, call.mapped.length, [], []⟩
      (start.submitLoop call.dmaMapped call.endings (request.swDescCnt + 1) 0 0).map
        fun (state, rv) =>
          let state := state.unmapSgl call.dmaMapped call.origNents
          ⟨if state.done ≠ 0 then state.done else rv, state.transfers, state.unmaps,
            some state.engine⟩

end SubmitCall

namespace SubmitDevice

def channelMax (device : SubmitDevice) (write : Bool) : ℕ :=
  if write then device.h2cChannelMax else device.c2hChannelMax

/-- The engine that a call is for. -/
def slot (device : SubmitDevice) (call : SubmitCall) : EngineSlot :=
  if call.write then device.engineH2c call.channel else device.engineC2h call.channel

/-- `xdma_xfer_submit`; `none` if it does not return. -/
def xdmaXferSubmit (device : SubmitDevice) (call : SubmitCall) : Option SubmitOutcome :=
  let slot := device.slot call
  if !device.listed then some (.refused .EINVAL)
  else if device.channelMax call.write ≤ call.channel then some (.refused .EINVAL)
  else if !slot.magic then some (.refused .EINVAL)
  else if device.offline then some (.refused .EBUSY)
  else if slot.engine.dir ≠ call.dir then some (.refused .EINVAL)
  else if call.mapped = [] then some (.refused .ioError)
  else call.run slot.engine

end SubmitDevice

/-! ## One transfer -/

/-- The number of bytes of blocks. -/
def blockBytes (blocks : List SwDesc) : ℕ := (blocks.map fun block => block.len.toNat).sum

theorem blockBytes_append (first second : List SwDesc) :
    blockBytes (first ++ second) = blockBytes first + blockBytes second := by
  simp [blockBytes]

theorem length_addrs_flatMap (blocks : List SwDesc) :
    (blocks.flatMap SwDesc.addrs).length = blockBytes blocks := by
  simp [blockBytes, List.length_flatMap, SwDesc.length_addrs]

theorem blockBytes_take_le (blocks : List SwDesc) (count : ℕ) :
    blockBytes (blocks.take count) ≤ blockBytes blocks := by
  conv_rhs => rw [← List.take_append_drop count blocks, blockBytes_append]
  exact Nat.le_add_right _ _

theorem carried_blocks (dir : DmaDirection) (epAddr : UInt64) (first second : List SwDesc) :
    carried dir epAddr ((first ++ second).flatMap SwDesc.addrs) =
      carried dir epAddr (first.flatMap SwDesc.addrs) ++
        carried dir (bytesAfter epAddr (blockBytes first)) (second.flatMap SwDesc.addrs) := by
  rw [List.flatMap_append, carried_append, length_addrs_flatMap]

theorem carried_take_prefix (dir : DmaDirection) (epAddr : UInt64) (blocks : List SwDesc)
    (count : ℕ) : carried dir epAddr ((blocks.take count).flatMap SwDesc.addrs) <+:
      carried dir epAddr (blocks.flatMap SwDesc.addrs) := by
  conv_rhs => rw [← List.take_append_drop count blocks, carried_blocks]
  exact List.prefix_append ..

/-- An engine whose descriptors name the addresses of the device one after another. -/
structure DescEngine.Plain (engine : DescEngine) (dir : DmaDirection) : Prop where
  noResults : ¬ engine.WritesResults
  incr : engine.nonIncrAddr = false
  dir : engine.dir = dir

namespace DescEngine

variable {engine : DescEngine} {request : XdmaRequest} {dir : DmaDirection}

/-- What the engine finds in the descriptors of a transfer. -/
def foundMoves (engine : DescEngine) (request : XdmaRequest) : List DescMove :=
  (((engine.transferInit request).1.read (engine.transferInit request).2.2.descBus).getD []).map
    XdmaDesc.move

theorem bytes_transferInit (plain : engine.Plain dir)
    (pending : request.swDescIdx < request.swDescCnt) :
    (engine.foundMoves request).flatMap DescMove.bytes =
      carried dir request.epAddr ((engine.transferBlocks request).flatMap SwDesc.addrs) := by
  rcases linked_transferInit.chain adjacent_transferInit (engine.transferDescMax_pos pending) with
    ⟨chain, found, -, moves, -⟩
  have read : (engine.transferInit request).1.read (engine.transferInit request).2.2.descBus =
      some chain := found
  rw [foundMoves, read, Option.getD_some, moves, moves_linkedDescs,
    bytes_blockMoves plain.noResults plain.incr, plain.dir]

theorem fst_transferBuild (desc : ℕ → XdmaDesc) : (engine.transferBuild request desc).1 =
    (engine.transferBlocks request).foldl engine.buildNext ⟨request.epAddr, 0, engine.resBus⟩ :=
  sweep_fst

theorem epAddr_transferInit (plain : engine.Plain dir) :
    (engine.transferInit request).2.1.epAddr =
      bytesAfter request.epAddr (blockBytes (engine.transferBlocks request)) := by
  simp only [transferInit]
  rw [fst_transferBuild, epAddr_foldl_buildNext plain.incr, blockBytes]

theorem len_transferInit (fits : blockBytes (engine.transferBlocks request) < 2 ^ 32) :
    (engine.transferInit request).2.2.len.toNat = blockBytes (engine.transferBlocks request) := by
  simp only [transferInit]
  rw [fst_transferBuild, len_foldl_buildNext (by simpa [blockBytes] using fits),
    UInt32.toNat_zero, Nat.zero_add, blockBytes]

end DescEngine

/-! ## The loop -/

namespace SubmitState

open SubmittedTransfer

/-- The first blocks of a list are done, and nothing else has been started. -/
structure Progress (dir : DmaDirection) (epAddr : UInt64) (blocks : List SwDesc) (count : ℕ)
    (state : SubmitState) : Prop where
  plain : state.engine.Plain dir
  sdesc : state.request.sdesc = blocks
  idx : state.request.swDescIdx = count
  le : count ≤ blocks.length
  nents : state.nents = blocks.length - count
  place : state.request.epAddr = bytesAfter epAddr (blockBytes (blocks.take count))
  done : state.done = blockBytes (blocks.take count)
  complete : completeBytes state.transfers =
    carried dir epAddr ((blocks.take count).flatMap SwDesc.addrs)
  stopped : stoppedBytes state.transfers = []

/-- The loop has ended after the first blocks, and what else it has started lies behind them. -/
structure Ended (dir : DmaDirection) (epAddr : UInt64) (blocks : List SwDesc) (count : ℕ)
    (state : SubmitState) (rv : ℤ) : Prop where
  done : state.done = blockBytes (blocks.take count)
  complete : completeBytes state.transfers =
    carried dir epAddr ((blocks.take count).flatMap SwDesc.addrs)
  stopped : stoppedBytes state.transfers <+:
    carried dir (bytesAfter epAddr (blockBytes (blocks.take count)))
      ((blocks.drop count).flatMap SwDesc.addrs)
  result : rv ≤ 0
  whole : rv = 0 → blocks.length ≤ count

section Iterations

variable {dmaMapped : Bool} {endings : ℕ → TransferEnd} {fuel index : ℕ} {state : SubmitState}

theorem submitLoop_next (goesOn : state.nents ≠ 0)
    (complete : (state.submitTransfer dmaMapped (endings index)).2 = 0) :
    submitLoop dmaMapped endings (fuel + 1) index state 0 = submitLoop dmaMapped endings fuel
      (index + 1) (state.submitTransfer dmaMapped (endings index)).1 0 := by
  rw [submitLoop, if_neg goesOn]
  generalize state.submitTransfer dmaMapped (endings index) = step at complete ⊢
  rcases step with ⟨after, rv⟩
  rw [show rv = 0 from complete]
  exact if_neg (lt_irrefl _)

theorem submitLoop_stop (goesOn : state.nents ≠ 0)
    (stops : (state.submitTransfer dmaMapped (endings index)).2 < 0) :
    submitLoop dmaMapped endings (fuel + 1) index state 0 =
      some (state.submitTransfer dmaMapped (endings index)) := by
  rw [submitLoop, if_neg goesOn]
  exact if_pos stops

end Iterations

section Retire

variable (state : SubmitState) (xfer : XdmaTransfer) (lastInRequest needUnmap : Bool)

@[simp]
theorem request_retire : (state.retire xfer lastInRequest needUnmap).request = state.request := by
  rw [retire, transferDestroy]
  split <;> rfl

@[simp]
theorem nents_retire : (state.retire xfer lastInRequest needUnmap).nents = state.nents := by
  rw [retire, transferDestroy]
  split <;> rfl

@[simp]
theorem done_retire : (state.retire xfer lastInRequest needUnmap).done = state.done := by
  rw [retire, transferDestroy]
  split <;> rfl

@[simp]
theorem transfers_retire :
    (state.retire xfer lastInRequest needUnmap).transfers = state.transfers := by
  rw [retire, transferDestroy]
  split <;> rfl

@[simp]
theorem plain_retire {dir : DmaDirection} :
    (state.retire xfer lastInRequest needUnmap).engine.Plain dir ↔ state.engine.Plain dir := by
  rw [retire, transferDestroy]
  split <;> exact ⟨fun plain => ⟨plain.noResults, plain.incr, plain.dir⟩,
    fun plain => ⟨plain.noResults, plain.incr, plain.dir⟩⟩

end Retire

section Steps

variable {dir : DmaDirection} {epAddr : UInt64} {blocks : List SwDesc} {count : ℕ}
  {state : SubmitState}

theorem Progress.pending (progress : Progress dir epAddr blocks count state)
    (goesOn : state.nents ≠ 0) : state.request.swDescIdx < state.request.swDescCnt := by
  have nents := progress.nents
  rw [progress.idx, XdmaRequest.swDescCnt, progress.sdesc]
  omega

theorem Progress.transferBlocks (progress : Progress dir epAddr blocks count state) :
    state.engine.transferBlocks state.request =
      (blocks.drop count).take (state.engine.transferDescMax state.request) := by
  rw [DescEngine.transferBlocks, progress.sdesc, progress.idx]

theorem Progress.take_add (progress : Progress dir epAddr blocks count state) :
    blocks.take (count + state.engine.transferDescMax state.request) =
      blocks.take count ++ state.engine.transferBlocks state.request := by
  rw [progress.transferBlocks, List.take_add]

theorem Progress.count_add_le (progress : Progress dir epAddr blocks count state) :
    count + state.engine.transferDescMax state.request ≤ blocks.length := by
  have le := progress.le
  rw [DescEngine.transferDescMax_eq, progress.idx, XdmaRequest.swDescCnt, progress.sdesc]
  omega

/-- The bytes of the next transfer are those behind the first blocks. -/
theorem Progress.bytes_next (progress : Progress dir epAddr blocks count state)
    (goesOn : state.nents ≠ 0) :
    (state.engine.foundMoves state.request).flatMap DescMove.bytes =
      carried dir (bytesAfter epAddr (blockBytes (blocks.take count)))
        ((state.engine.transferBlocks state.request).flatMap SwDesc.addrs) := by
  rw [DescEngine.bytes_transferInit progress.plain (progress.pending goesOn), progress.place]

/-- A complete transfer moves the loop on by its blocks. -/
theorem Progress.completed (progress : Progress dir epAddr blocks count state)
    (dmaMapped : Bool) (goesOn : state.nents ≠ 0) (fits : blockBytes blocks < 2 ^ 32)
    (descCmpl : ℕ) (lengths : ℕ → UInt32) :
    Progress dir epAddr blocks (count + state.engine.transferDescMax state.request)
      (state.submitTransfer dmaMapped (.completed descCmpl lengths)).1 := by
  have bytes := progress.bytes_next goesOn
  have total := blockBytes_take_le blocks (count + state.engine.transferDescMax state.request)
  rw [progress.take_add, blockBytes_append] at total
  have len : (state.engine.transferInit state.request).2.2.len.toNat = blockBytes _ :=
    DescEngine.len_transferInit (by omega)
  have plain' : (state.engine.transferInit state.request).1.Plain dir :=
    ⟨progress.plain.noResults, progress.plain.incr, progress.plain.dir⟩
  constructor
  case plain => exact (plain_retire ..).mpr plain'
  case sdesc =>
    rw [submitTransfer, request_retire]
    exact progress.sdesc
  case idx =>
    rw [submitTransfer, request_retire]
    exact congrArg (· + _) progress.idx
  case le => exact progress.count_add_le
  case nents =>
    have noFlush : ¬ ((state.engine.transferInit state.request).1.WritesResults ∧
        (state.engine.transferInit state.request).1.eopFlush = true) :=
      fun flush => plain'.noResults flush.1
    rw [submitTransfer, nents_retire]
    simp only [if_neg noFlush]
    rw [progress.nents, Nat.sub_sub]
    rfl
  case place =>
    rw [submitTransfer, request_retire]
    simp only
    rw [DescEngine.epAddr_transferInit progress.plain, progress.place, bytesAfter_bytesAfter,
      progress.take_add, blockBytes_append]
  case done =>
    rw [submitTransfer, done_retire]
    simp only [doneBytes, if_neg plain'.noResults]
    rw [len, progress.done, progress.take_add, blockBytes_append, Nat.cast_add]
  case complete =>
    rw [submitTransfer, transfers_retire, progress.take_add, carried_blocks,
      ← progress.complete, ← bytes]
    simp [completeBytes, TransferEnd.isCompleted, SubmittedTransfer.bytes, DescEngine.foundMoves]
  case stopped =>
    rw [submitTransfer, transfers_retire, ← progress.stopped]
    simp [stoppedBytes, TransferEnd.isCompleted]

/-- A transfer that is not complete ends the loop. -/
theorem Progress.ended (progress : Progress dir epAddr blocks count state)
    (dmaMapped : Bool) (goesOn : state.nents ≠ 0) {ending : TransferEnd}
    (stops : ending.isCompleted = false) : (state.submitTransfer dmaMapped ending).2 < 0 ∧
      Ended dir epAddr blocks count (state.submitTransfer dmaMapped ending).1
        (state.submitTransfer dmaMapped ending).2 := by
  have bytes := progress.bytes_next goesOn
  have transfers : (state.submitTransfer dmaMapped ending).1.transfers =
      state.transfers ++ [⟨state.engine.foundMoves state.request, ending⟩] := by
    cases ending <;> simp only [submitTransfer, transfers_retire, DescEngine.foundMoves]
  have done : (state.submitTransfer dmaMapped ending).1.done = state.done := by
    cases ending with
    | completed descCmpl lengths => cases stops
    | _ => simp only [submitTransfer, done_retire]
  have negative : (state.submitTransfer dmaMapped ending).2 < 0 := by
    cases ending with
    | completed descCmpl lengths => cases stops
    | refused err => exact Int.neg_neg_of_pos err.code_pos
    | _ => exact Int.neg_neg_of_pos (EngineErrno.code_pos _)
  refine ⟨negative, done.trans progress.done, ?_, ?_, negative.le, fun zero => ?_⟩
  · rw [transfers, ← progress.complete]
    simp [completeBytes, stops]
  · have next : stoppedBytes (state.submitTransfer dmaMapped ending).1.transfers =
        (state.engine.foundMoves state.request).flatMap DescMove.bytes := by
      have none := progress.stopped
      rw [transfers]
      simp only [stoppedBytes] at none ⊢
      simp [List.filter_append, none, stops, SubmittedTransfer.bytes]
    rw [next, bytes, progress.transferBlocks]
    exact carried_take_prefix ..
  · omega

/-- The loop comes to an end, whatever becomes of the transfers. -/
theorem Progress.loop {fuel : ℕ} (progress : Progress dir epAddr blocks count state)
    (dmaMapped : Bool) (endings : ℕ → TransferEnd) (index : ℕ)
    (fits : blockBytes blocks < 2 ^ 32) (enough : state.nents < fuel) :
    ∃ count final rv, submitLoop dmaMapped endings fuel index state 0 = some (final, rv) ∧
      Ended dir epAddr blocks count final rv ∧
      ((∀ index, (endings index).isCompleted = true) → rv = 0) := by
  induction fuel generalizing count state index with
  | zero => exact absurd enough (Nat.not_lt_zero _)
  | succ fuel ih =>
      by_cases goesOn : state.nents = 0
      · have le := progress.le
        have nents := progress.nents
        refine ⟨count, state, 0, if_pos goesOn, ?_, fun _ => rfl⟩
        refine ⟨progress.done, progress.complete, ?_, le_rfl, fun _ => by omega⟩
        rw [progress.stopped]
        exact List.nil_prefix
      cases complete : (endings index).isCompleted with
      | false =>
          rcases progress.ended dmaMapped goesOn complete with ⟨negative, ended⟩
          refine ⟨count, _, _, submitLoop_stop goesOn negative, ended, fun all => ?_⟩
          rw [all index] at complete
          cases complete
      | true =>
          rcases completed_of_isCompleted complete with ⟨descCmpl, lengths, ending⟩
          have next := progress.completed dmaMapped goesOn fits descCmpl lengths
          have pos := state.engine.transferDescMax_pos (progress.pending goesOn)
          have nents := progress.nents
          have le := next.le
          rw [← ending] at next
          have fewer := next.nents
          rw [submitLoop_next goesOn (by rw [ending]; rfl)]
          exact ih next (index + 1) (by omega)

end Steps

end SubmitState

/-! ## The call -/

open SubmittedTransfer

@[simp]
theorem SubmitState.unmapSgl_keeps (state : SubmitState) (dmaMapped : Bool) (origNents : ℕ) :
    (state.unmapSgl dmaMapped origNents).done = state.done ∧
      (state.unmapSgl dmaMapped origNents).transfers = state.transfers := by
  rw [SubmitState.unmapSgl]
  split <;> exact ⟨rfl, rfl⟩

theorem xdmaInitRequest_some {blenMax : DescBlenMax} {alloc : Bool} {sgl : List DmaEntry}
    {epAddr : UInt64} {request : XdmaRequest}
    (made : xdmaInitRequest blenMax alloc sgl epAddr = some request) :
    request.epAddr = epAddr ∧ request.swDescIdx = 0 ∧ request.sdesc = cutSgl blenMax sgl := by
  rw [xdmaInitRequest] at made
  split at made
  · cases made
  simp only at made
  split at made
  · cases made
  cases made
  exact ⟨rfl, rfl, rfl⟩

theorem blockBytes_cutSgl (blenMax : DescBlenMax) (sgl : List DmaEntry) :
    blockBytes (cutSgl blenMax sgl) = (sgl.map fun entry => entry.len.toNat).sum := by
  rw [← length_addrs_flatMap, addrs_cutSgl, List.length_flatMap]
  simp [DmaEntry.addrs, DmaEntry.segment, Segment.places]

/-- What a call of `xdma_xfer_submit` has carried when it returns. -/
structure SubmitOutcome.Carries (outcome : SubmitOutcome) (buffer : List (UInt64 × UInt64)) :
    Prop where
  ret : outcome.ret ≤ buffer.length
  complete : completeBytes outcome.transfers = buffer.take outcome.ret.toNat
  stopped : stoppedBytes outcome.transfers <+: buffer.drop outcome.ret.toNat

theorem SubmitOutcome.Carries.of_none {outcome : SubmitOutcome} (negative : outcome.ret ≤ 0)
    (none : outcome.transfers = []) (buffer : List (UInt64 × UInt64)) :
    outcome.Carries buffer := by
  have zero := Int.toNat_of_nonpos negative
  refine ⟨by omega, ?_, ?_⟩
  · rw [none, zero]
    rfl
  · rw [none]
    exact List.nil_prefix

/-- The bytes of the list, and those of the device from the address on. -/
def SubmitCall.buffer (call : SubmitCall) : List (UInt64 × UInt64) :=
  carried call.dir call.epAddr (call.mapped.flatMap DmaEntry.addrs)

/-- What the result of a call says about the bytes that it has carried. -/
structure SubmitOutcome.Reports (outcome : SubmitOutcome) (call : SubmitCall) : Prop where
  carries : outcome.Carries call.buffer
  whole : (∀ index, (call.endings index).isCompleted = true) → 0 ≤ outcome.ret →
    outcome.ret = call.buffer.length

theorem SubmitOutcome.reports_refused (err : EngineErrno) (call : SubmitCall) :
    (SubmitOutcome.refused err).Reports call := by
  have negative : (SubmitOutcome.refused err).ret < 0 := Int.neg_neg_of_pos err.code_pos
  exact ⟨.of_none negative.le rfl _, fun _ nonneg => absurd negative (by omega)⟩

namespace SubmitCall

variable {call : SubmitCall} {engine : DescEngine}

/-- The outcome of the loop is that of the call. -/
theorem carries_of_ended {blocks : List SwDesc} {count : ℕ} {final : SubmitState} {rv : ℤ}
    {outcome : SubmitOutcome} (cut : blocks = cutSgl call.blenMax call.mapped)
    (ended : final.Ended call.dir call.epAddr blocks count rv)
    (ret : outcome.ret = if final.done ≠ 0 then final.done else rv)
    (transfers : outcome.transfers = final.transfers) : outcome.Carries call.buffer := by
  have buffer : call.buffer = carried call.dir call.epAddr ((blocks.take count).flatMap
      SwDesc.addrs) ++ carried call.dir (bytesAfter call.epAddr (blockBytes (blocks.take count)))
        ((blocks.drop count).flatMap SwDesc.addrs) := by
    rw [← carried_blocks, List.take_append_drop, cut, addrs_cutSgl, SubmitCall.buffer]
  have length : (carried call.dir call.epAddr ((blocks.take count).flatMap
      SwDesc.addrs)).length = blockBytes (blocks.take count) := by
    rw [length_carried, length_addrs_flatMap]
  have toNat : outcome.ret.toNat = blockBytes (blocks.take count) := by
    have result := ended.result
    rw [ret, ended.done]
    split <;> omega
  refine ⟨?_, ?_, ?_⟩
  · have all := Int.self_le_toNat outcome.ret
    rw [buffer, List.length_append, length]
    omega
  · rw [transfers, ended.complete, buffer, toNat, ← length, List.take_left]
  · rw [transfers, buffer, toNat, List.drop_append_of_le_length length.ge, ← length,
      List.drop_length, length]
    exact ended.stopped

theorem run_carries (plain : engine.Plain call.dir)
    (fits : (call.mapped.map fun entry => entry.len.toNat).sum < 2 ^ 32) :
    ∃ outcome, call.run engine = some outcome ∧ outcome.Reports call := by
  rw [run]
  split
  · have negative : -EngineErrno.ENOMEM.code < 0 := by decide
    exact ⟨_, rfl, .of_none negative.le rfl _, fun _ nonneg => absurd nonneg negative.not_ge⟩
  · rename_i request made
    rcases xdmaInitRequest_some made with ⟨epAddr, idx, sdesc⟩
    have start : SubmitState.Progress call.dir call.epAddr request.sdesc 0
        ⟨engine, request, request.swDescCnt, 0, call.mapped.length, [], []⟩ :=
      ⟨plain, rfl, idx, Nat.zero_le _, rfl, by simp [epAddr, blockBytes], rfl, rfl, rfl⟩
    have total : blockBytes request.sdesc < 2 ^ 32 := by
      rwa [sdesc, blockBytes_cutSgl]
    rcases start.loop call.dmaMapped call.endings 0 total (Nat.lt_succ_self request.swDescCnt)
      with ⟨count, final, rv, loop, ended, complete⟩
    simp only [loop, Option.map_some]
    refine ⟨_, rfl, carries_of_ended sdesc ended (by simp) (by simp), fun all _ => ?_⟩
    have whole := ended.whole (complete all)
    have taken : call.buffer.length = blockBytes (request.sdesc.take count) := by
      rw [List.take_of_length_le whole, sdesc, ← length_addrs_flatMap, addrs_cutSgl, buffer,
        length_carried]
    simp only [SubmitState.unmapSgl_keeps, ended.done, complete all, taken]
    split <;> omega

end SubmitCall

/-- A call is refused before anything has been done, or it works on an engine of its direction. -/
theorem SubmitDevice.xdmaXferSubmit_cases (device : SubmitDevice) (call : SubmitCall) :
    (∃ err, device.xdmaXferSubmit call = some (.refused err)) ∨
      (device.slot call).engine.dir = call.dir ∧ call.mapped ≠ [] ∧
        device.xdmaXferSubmit call = call.run (device.slot call).engine := by
  simp only [SubmitDevice.xdmaXferSubmit]
  split_ifs with _ _ _ _ otherDir none
  all_goals first | exact Or.inl ⟨_, rfl⟩ | skip
  exact Or.inr ⟨not_not.mp otherDir, none, rfl⟩

/-- The call returns. If its result is positive, it is the number of bytes that have been carried,
and these are the first ones of the list, to or from the device from the address on. What else was
started lies behind them. Nothing has been carried completely if the result is an error. If the
engine completes every transfer that it is given, the call carries the whole list or returns an
error. -/
theorem xdmaXferSubmit_carries {device : SubmitDevice} {call : SubmitCall}
    (noResults : ¬ (device.slot call).engine.WritesResults)
    (incr : (device.slot call).engine.nonIncrAddr = false)
    (fits : (call.mapped.map fun entry => entry.len.toNat).sum < 2 ^ 32) :
    ∃ outcome, device.xdmaXferSubmit call = some outcome ∧ outcome.Reports call := by
  rcases device.xdmaXferSubmit_cases call with ⟨err, refused⟩ | ⟨sameDir, -, runs⟩
  · exact ⟨_, refused, SubmitOutcome.reports_refused err call⟩
  · rw [runs]
    exact SubmitCall.run_carries ⟨noResults, incr, sameDir⟩ fits

/-- The engine with the last descriptor of three next. -/
abbrev nearRingEnd : DescEngine := DescEngine.ringOfThree 2

def nearRingEndDevice : SubmitDevice where
  listed := true
  offline := false
  h2cChannelMax := 1
  c2hChannelMax := 0
  engineH2c := fun _ => ⟨true, nearRingEnd⟩
  engineC2h := fun _ => ⟨false, nearRingEnd⟩

/-- Eight bytes in two entries, of which the first one takes two blocks. -/
def twoEntryCall : SubmitCall where
  channel := 0
  write := true
  epAddr := 0x80
  dmaMapped := false
  origNents := 2
  mapped := [⟨0x1000, 6⟩, ⟨0x5000, 2⟩]
  alloc := true
  blenMax := ⟨4, by decide⟩
  endings := fun _ => .completed 0 fun _ => 0

/-- The call takes two transfers, the first one with the last descriptor of the ring. -/
theorem xdmaXferSubmit_carries_twoEntryCall :
    (∃ outcome, nearRingEndDevice.xdmaXferSubmit twoEntryCall = some outcome ∧
      outcome.Reports twoEntryCall) ∧
      (nearRingEndDevice.xdmaXferSubmit twoEntryCall).map (fun outcome =>
        (outcome.ret, outcome.transfers.map SubmittedTransfer.moves)) =
      some (8, [[⟨0x1000, 0x80, 4⟩], [⟨0x1004, 0x84, 2⟩, ⟨0x5000, 0x86, 2⟩]]) :=
  ⟨xdmaXferSubmit_carries (by decide) rfl (by decide), by decide +kernel⟩

/-! ## The range of the results -/

namespace SubmitState

end SubmitState

namespace TransferEnd

def isRefused : TransferEnd → Bool
  | refused _ => true
  | _ => false

end TransferEnd

namespace SubmitState

/-- What the loop holds: the mapping of the list, which `pci_unmap_sg` gives back once, and the
descriptors that are in use. -/
structure Holds (dmaMapped : Bool) (descUsed : ℤ) (state : SubmitState) : Prop where
  left : state.nents = 0 ∨ state.nents = state.request.swDescCnt - state.request.swDescIdx
  kept : dmaMapped = true → state.unmaps = []
  given : dmaMapped = false → state.unmaps.length + (if state.sgtNents = 0 then 0 else 1) = 1
  used : descUsed ≤ state.engine.descUsed ∧ (state.engine.descUsed = descUsed ↔
    ∀ transfer ∈ state.transfers, transfer.ending.isRefused = false)

section Holding

variable {dmaMapped : Bool} {descUsed : ℤ} {state : SubmitState}

theorem holds_retire {xfer : XdmaTransfer} {lastInRequest : Bool}
    (holds : Holds dmaMapped descUsed
      { state with engine := { state.engine with
        descUsed := state.engine.descUsed - xfer.descNum } }) :
    Holds dmaMapped descUsed (state.retire xfer lastInRequest !dmaMapped) := by
  rcases holds with ⟨left, kept, given, used⟩
  rw [retire, transferDestroy]
  split
  · rename_i unmaps
    simp only [Bool.not_eq_true', ne_eq] at unmaps
    refine ⟨left, fun mapped => ?_, fun notMapped => ?_, used⟩
    · rw [unmaps.2.1] at mapped
      cases mapped
    · have balance := given notMapped
      rw [if_neg unmaps.2.2] at balance
      simp only [List.length_append, List.length_singleton, if_pos]
      exact balance
  · exact ⟨left, kept, given, used⟩

@[simp]
theorem descUsed_retire (xfer : XdmaTransfer) (lastInRequest needUnmap : Bool) :
    (state.retire xfer lastInRequest needUnmap).engine.descUsed =
      state.engine.descUsed - xfer.descNum := by
  rw [retire, transferDestroy]
  split <;> rfl

/-- The state with a transfer that has been queued. -/
def withTransfer (state : SubmitState) (nents : ℕ) (done : ℤ) (ending : TransferEnd) :
    SubmitState :=
  { state with
    engine := (state.engine.transferInit state.request).1
    request := (state.engine.transferInit state.request).2.1
    nents := nents
    done := done
    transfers := state.transfers ++ [⟨state.engine.foundMoves state.request, ending⟩] }

/-- A transfer that was queued is given back, however it ends. -/
theorem Holds.retire_withTransfer (holds : Holds dmaMapped descUsed state)
    (noneRefused : state.engine.descUsed = descUsed) {nents : ℕ} {done : ℤ} (ending : TransferEnd)
    {lastInRequest : Bool} (queued : ending.isRefused = false)
    (left : nents = 0 ∨ nents = state.request.swDescCnt -
      (state.request.swDescIdx + state.engine.transferDescMax state.request)) :
    Holds dmaMapped descUsed ((state.withTransfer nents done ending).retire
        (state.engine.transferInit state.request).2.2 lastInRequest !dmaMapped) ∧
      ((state.withTransfer nents done ending).retire
        (state.engine.transferInit state.request).2.2 lastInRequest
          !dmaMapped).engine.descUsed = descUsed := by
  have restored : (state.withTransfer nents done ending).engine.descUsed -
      ((state.engine.transferInit state.request).2.2.descNum : ℤ) = descUsed := by
    rw [← noneRefused]
    exact Int.add_sub_cancel _ _
  have none := holds.used.2.mp noneRefused
  refine ⟨holds_retire ⟨left, holds.kept, holds.given, restored.ge, fun _ => ?_, fun _ => restored⟩,
    (descUsed_retire ..).trans restored⟩
  intro transfer transfer_mem
  rcases List.mem_append.mp transfer_mem with before | new
  · exact none transfer before
  · rw [List.mem_singleton.mp new]
    exact queued

theorem Holds.submitTransfer (holds : Holds dmaMapped descUsed state) (goesOn : state.nents ≠ 0)
    (ending : TransferEnd) (noneRefused : state.engine.descUsed = descUsed) :
    Holds dmaMapped descUsed (state.submitTransfer dmaMapped ending).1 ∧
      (state.submitTransfer dmaMapped ending).1.nents < state.nents ∧
      (0 ≤ (state.submitTransfer dmaMapped ending).2 →
        (state.submitTransfer dmaMapped ending).2 = 0 ∧
        (state.submitTransfer dmaMapped ending).1.engine.descUsed = descUsed) := by
  have idx := holds.left.resolve_left goesOn
  have pos : 0 < state.engine.transferDescMax state.request :=
    DescEngine.transferDescMax_pos (by omega)
  have fewer : state.nents - state.engine.transferDescMax state.request < state.nents := by
    omega
  have behind : state.nents - state.engine.transferDescMax state.request =
      state.request.swDescCnt -
        (state.request.swDescIdx + state.engine.transferDescMax state.request) := by
    omega
  cases ending with
  | refused err =>
      have more : descUsed < (state.submitTransfer dmaMapped (.refused err)).1.engine.descUsed := by
        rw [← noneRefused]
        exact Int.lt_add_of_pos_right _ (Int.natCast_pos.mpr pos)
      have negative : -err.code < 0 := Int.neg_neg_of_pos err.code_pos
      refine ⟨⟨Or.inr behind, holds.kept, holds.given, more.le, fun same => ?_, fun none => ?_⟩,
        fewer, fun nonneg => absurd nonneg negative.not_ge⟩
      · exact absurd same more.ne'
      · exact absurd (none _ (List.mem_append_right _ (List.mem_singleton_self _)))
          Bool.true_eq_false.mp
  | completed descCmpl lengths =>
      have left : ∀ flush : Prop, [Decidable flush] →
          let nents := if flush then 0
            else state.nents - state.engine.transferDescMax state.request
          (nents = 0 ∨ nents = state.request.swDescCnt -
            (state.request.swDescIdx + state.engine.transferDescMax state.request)) ∧
          nents < state.nents := by
        intro flush _
        dsimp only
        split <;> omega
      have retired := fun nents left => @Holds.retire_withTransfer _ _ _ holds noneRefused nents
        (state.done + doneBytes (state.engine.transferInit state.request).1
          (state.engine.transferInit state.request).2.2 descCmpl lengths)
        (.completed descCmpl lengths)
        (decide (state.nents - state.engine.transferDescMax state.request = 0)) rfl left
      exact ⟨(retired _ (left _).1).1, (nents_retire ..).trans_lt (left _).2,
        fun _ => ⟨rfl, (retired _ (left _).1).2⟩⟩
  | failed =>
      exact ⟨(holds.retire_withTransfer noneRefused .failed rfl (Or.inr behind)).1,
        (nents_retire ..).trans_lt fewer,
        fun nonneg => absurd nonneg (Int.neg_neg_of_pos (EngineErrno.code_pos _)).not_ge⟩
  | pending =>
      exact ⟨(holds.retire_withTransfer noneRefused .pending rfl (Or.inr behind)).1,
        (nents_retire ..).trans_lt fewer,
        fun nonneg => absurd nonneg (Int.neg_neg_of_pos (EngineErrno.code_pos _)).not_ge⟩

/-- The loop comes to an end on every engine, and holds what the invariant says. -/
theorem Holds.loop {fuel : ℕ} (holds : Holds dmaMapped descUsed state)
    (endings : ℕ → TransferEnd) (index : ℕ) (noneRefused : state.engine.descUsed = descUsed)
    (enough : state.nents < fuel) :
    ∃ final rv, submitLoop dmaMapped endings fuel index state 0 = some (final, rv) ∧
      Holds dmaMapped descUsed final := by
  induction fuel generalizing state index with
  | zero => exact absurd enough (Nat.not_lt_zero _)
  | succ fuel ih =>
      by_cases goesOn : state.nents = 0
      · exact ⟨state, 0, if_pos goesOn, holds⟩
      rcases holds.submitTransfer goesOn (endings index) noneRefused with ⟨holds', fewer, nonneg⟩
      by_cases negative : (state.submitTransfer dmaMapped (endings index)).2 < 0
      · exact ⟨_, _, submitLoop_stop goesOn negative, holds'⟩
      · rcases nonneg (not_lt.mp negative) with ⟨zero, restored⟩
        rw [submitLoop_next goesOn zero]
        exact ih holds' (index + 1) restored (by omega)

end Holding

end SubmitState

/-- When the call returns, a list that it has mapped is unmapped, and once only; one that was mapped
before stays so. The descriptors are no longer counted as used, except for those of a transfer that
the engine has refused. -/
theorem xdmaXferSubmit_gives_back (device : SubmitDevice) (call : SubmitCall) :
    ∃ outcome, device.xdmaXferSubmit call = some outcome ∧
      outcome.unmaps.length = (if call.dmaMapped ∨ outcome.engine.isNone then 0 else 1) ∧
      ∀ engine, outcome.engine = some engine →
        (device.slot call).engine.descUsed ≤ engine.descUsed ∧
        (engine.descUsed = (device.slot call).engine.descUsed ↔
          ∀ transfer ∈ outcome.transfers, transfer.ending.isRefused = false) := by
  rcases device.xdmaXferSubmit_cases call with ⟨err, refused⟩ | ⟨-, mapped, runs⟩
  · exact ⟨_, refused, (if_pos (Or.inr rfl)).symm, fun engine none => by cases none⟩
  rw [runs]
  rw [SubmitCall.run]
  split
  · refine ⟨_, rfl, ?_, fun engine same => ?_⟩
    · cases call.dmaMapped <;> rfl
    · cases same
      exact ⟨le_rfl, fun _ transfer transfer_mem => (List.not_mem_nil transfer_mem).elim,
        fun _ => rfl⟩
  · rename_i request made
    rcases xdmaInitRequest_some made with ⟨-, idx, -⟩
    have start : SubmitState.Holds call.dmaMapped (device.slot call).engine.descUsed
        ⟨(device.slot call).engine, request, request.swDescCnt, 0, call.mapped.length, [], []⟩ := by
      refine ⟨Or.inr ?_, fun _ => rfl, fun _ => ?_, le_rfl, fun _ transfer transfer_mem =>
        (List.not_mem_nil transfer_mem).elim, fun _ => rfl⟩
      · simp only [idx, Nat.sub_zero]
      · rw [if_neg (by simpa using mapped)]
        rfl
    rcases start.loop call.endings 0 rfl (Nat.lt_succ_self _) with ⟨final, rv, loop, holds⟩
    rcases holds with ⟨-, kept, given, used⟩
    simp only [loop, Option.map_some]
    refine ⟨_, rfl, ?_, fun engine same => ?_⟩
    · rw [SubmitState.unmapSgl]
      cases isMapped : call.dmaMapped with
      | true => simp [kept isMapped]
      | false =>
          have balance := given isMapped
          split <;> simp_all
    · cases same
      rw [SubmitState.unmapSgl]
      split <;> exact used

end Acai
