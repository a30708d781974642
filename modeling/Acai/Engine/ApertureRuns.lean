import Acai.Engine.Aperture
import Acai.Lib.Loops

/-!
# Calls of `xdma_xfer_aperture`

The call hands the list to the engine, one transfer after another, and waits for each of
them. How a transfer ends is data of the call. The loop may not come to an end, and is
followed for a number of iterations.

No byte that the call moves lies outside of the window of the device
(`xdmaXferAperture_inWindow`).
-/

namespace Acai

/-- The arguments of `xdma_xfer_aperture`, and what the kernel does in the call. -/
structure ApertureCall where
  write : Bool
  epAddr : UInt64
  aperture : UInt32
  dmaMapped : Bool
  origNents : ℕ
  /-- The entries that `pci_map_sg` makes, or those of a list that is mapped already. -/
  mapped : List DmaEntry
  /-- There is memory for the request. -/
  alloc : Bool
  blenMax : DescBlenMax
  endings : ℕ → TransferEnd

/-- What `xdma_xfer_aperture` works on. -/
structure ApertureState where
  engine : DescEngine
  request : ApertureRequest
  done : ℤ
  /-- `sgt->nents` -/
  sgtNents : ℕ
  /-- The number of entries of every call of `pci_unmap_sg`. -/
  unmaps : List ℕ
  /-- The transfers in their order. -/
  transfers : List SubmittedTransfer

/-- How the loop of `xdma_xfer_aperture` ends. -/
inductive ApertureEnd where
  /-- The loop is left with `rv`. -/
  | left (state : ApertureState) (rv : ℤ)
  /-- No descriptor has been filled in, and the loop that links them goes beyond the ring. -/
  | overrun (state : ApertureState)

def ApertureEnd.state : ApertureEnd → ApertureState
  | left state _ => state
  | overrun state => state

namespace ApertureState

/-- `engine->desc_used -= xfer->desc_num` and `transfer_destroy`. -/
def retire (state : ApertureState) (xfer : XdmaTransfer) (lastInRequest needUnmap : Bool) :
    ApertureState :=
  let cleared := swept (fun _ _ _ => XdmaDesc.zero) (fun _ _ => ()) (List.range xfer.descNum)
    xfer.descIndex () state.engine.desc
  let state := { state with
    engine := { state.engine with
      desc := cleared
      descUsed := state.engine.descUsed - xfer.descNum } }
  if lastInRequest ∧ needUnmap ∧ state.sgtNents ≠ 0 then
    { state with unmaps := state.unmaps ++ [state.sgtNents], sgtNents := 0 }
  else state

end ApertureState

namespace ApertureCall

variable (call : ApertureCall)

def dir : DmaDirection := if call.write then .toDevice else .fromDevice

/-- `req` before the loop. -/
def request : ApertureRequest where
  epAddr := call.epAddr
  aperture := call.aperture
  totalLen := totalLen call.mapped
  offset := 0
  sg := call.mapped
  sgIdx := 0
  sgOffset := 0

def start (engine : DescEngine) : ApertureState :=
  ⟨engine, call.request, 0, call.mapped.length, [], []⟩

/-- One iteration of the loop. Before each of them, `rv` is zero. -/
def round (state : ApertureState) : ApertureState ⊕ ApertureEnd :=
  if state.request.offset < state.request.totalLen then
    match state.engine.apertureInit state.request call.blenMax call.mapped.length with
    | none => .inr (.overrun state)
    | some (engine, request, xfer) =>
        let ending := call.endings state.transfers.length
        let lastInRequest : Bool := request.offset = request.totalLen
        let started : ApertureState :=
          { state with
            engine := engine
            request := request
            transfers := state.transfers ++
              [⟨((engine.read xfer.descBus).getD []).map XdmaDesc.move, ending⟩] }
        match ending with
        | .refused err => .inr (.left started (-err.code))
        | .completed _ _ =>
            let counted := { started with done := started.done + xfer.len.toNat }
            .inl (counted.retire xfer lastInRequest !call.dmaMapped)
        | .failed =>
            .inr (.left (started.retire xfer lastInRequest !call.dmaMapped)
              (-EngineErrno.ioError.code))
        | .pending =>
            .inr (.left (started.retire xfer lastInRequest !call.dmaMapped)
              (-EngineErrno.ERESTARTSYS.code))
  else .inr (.left state 0)

/-- What follows `unmap_sgl`. -/
def finish (state : ApertureState) (rv : ℤ) : SubmitOutcome where
  ret := if state.done ≠ 0 then state.done else rv
  transfers := state.transfers
  unmaps :=
    if !call.dmaMapped ∧ state.sgtNents ≠ 0 then state.unmaps ++ [call.origNents]
    else state.unmaps
  engine := some state.engine

end ApertureCall

/-- What has become of a call of `xdma_xfer_aperture`. -/
inductive ApertureResult where
  | returned (outcome : SubmitOutcome)
  /-- The loop has not ended yet. -/
  | running (state : ApertureState)
  | overrun (state : ApertureState)

/-- What has become of a call whose loop has come to a state or to its end. -/
def ApertureCall.result (call : ApertureCall) : ApertureState ⊕ ApertureEnd → ApertureResult
  | .inl state => .running state
  | .inr (.left state rv) => .returned (call.finish state rv)
  | .inr (.overrun state) => .overrun state

/-- The transfers that have been handed to the engine. -/
def ApertureResult.transfers : ApertureResult → List SubmittedTransfer
  | returned outcome => outcome.transfers
  | running state => state.transfers
  | overrun state => state.transfers

/-- `xdma_xfer_aperture`, if its loop is followed for a number of iterations. -/
def xdmaXferAperture (slot : Option EngineSlot) (offline : Bool) (call : ApertureCall)
    (rounds : ℕ) : ApertureResult :=
  match slot with
  | none => .returned (.refused .EINVAL)
  | some slot =>
      if !slot.magic then .returned (.refused .EINVAL)
      else if offline then .returned (.refused .EBUSY)
      else if slot.engine.dir ≠ call.dir then .returned (.refused .EINVAL)
      else if slot.engine.streaming then .returned (.refused .EINVAL)
      else if call.mapped = [] then .returned (.refused .ioError)
      else if !call.alloc then
        let unmaps := if call.dmaMapped then [] else [call.origNents]
        .returned ⟨-EngineErrno.ENOMEM.code, [], unmaps, some slot.engine⟩
      else
        call.result (Loop.after call.round rounds (call.start slot.engine))

/-! ## One iteration -/

namespace ApertureState

/-- The state with a transfer that has been handed to the engine. -/
def withTransfer (state : ApertureState) (engine : DescEngine) (request : ApertureRequest)
    (chain : List XdmaDesc) (ending : TransferEnd) : ApertureState :=
  { state with
    engine := engine
    request := request
    transfers := state.transfers ++ [⟨chain.map XdmaDesc.move, ending⟩] }

/-- The same work on the list, whatever is mapped, and whatever the descriptors hold. -/
structure SameWork (state other : ApertureState) : Prop where
  dir : state.engine.dir = other.engine.dir
  request : state.request = other.request
  done : state.done = other.done
  transfers : state.transfers = other.transfers

theorem sameWork_retire (state : ApertureState) (xfer : XdmaTransfer)
    (lastInRequest needUnmap : Bool) :
    (state.retire xfer lastInRequest needUnmap).SameWork state := by
  rw [retire]
  simp only
  split <;> exact ⟨rfl, rfl, rfl, rfl⟩

end ApertureState

namespace ApertureCall

variable {call : ApertureCall} {state : ApertureState}

/-- The transfer of an iteration: it goes on with the bytes of the transfer if that is complete, and
stops with an error otherwise. -/
theorem round_transfer (goesOn : state.request.offset < state.request.totalLen)
    {engine : DescEngine} {request : ApertureRequest} {xfer : XdmaTransfer}
    {chain : List XdmaDesc} (made : state.engine.apertureInit state.request call.blenMax
      call.mapped.length = some (engine, request, xfer))
    (read : engine.read xfer.descBus = some chain) :
    let ending := call.endings state.transfers.length
    let queued := state.withTransfer engine request chain ending
    (ending.isCompleted = true ∧ ∃ next, call.round state = .inl next ∧
        next.SameWork { queued with done := queued.done + xfer.len.toNat }) ∨
      (ending.isCompleted = false ∧ ∃ last rv, call.round state = .inr (.left last rv) ∧
        last.SameWork queued ∧ rv < 0) := by
  simp only [round, if_pos goesOn, made, read, Option.getD_some]
  cases call.endings state.transfers.length with
  | completed descCmpl lengths =>
      exact Or.inl ⟨rfl, _, rfl, ApertureState.sameWork_retire ..⟩
  | refused err =>
      exact Or.inr ⟨rfl, _, _, rfl, ⟨rfl, rfl, rfl, rfl⟩, Int.neg_neg_of_pos err.code_pos⟩
  | failed =>
      exact Or.inr ⟨rfl, _, _, rfl, ApertureState.sameWork_retire ..,
        Int.neg_neg_of_pos (EngineErrno.code_pos _)⟩
  | pending =>
      exact Or.inr ⟨rfl, _, _, rfl, ApertureState.sameWork_retire ..,
        Int.neg_neg_of_pos (EngineErrno.code_pos _)⟩

/-! ## The window -/

/-- The address on the device of a byte that is carried. -/
def deviceSide (call : ApertureCall) (byte : UInt64 × UInt64) : UInt64 :=
  if call.dir = .toDevice then byte.2 else byte.1

/-- An address in the window of the call. -/
def InWindow (call : ApertureCall) (addr : UInt64) : Prop :=
  ∃ place < call.aperture.toNat, addr = bytesAfter call.epAddr place

theorem inWindow_carriedAround (pos : 0 < call.aperture.toNat) {start : ℕ} {addrs : List UInt64}
    {byte : UInt64 × UInt64}
    (byte_mem : byte ∈ carriedAround call.dir call.epAddr call.aperture.toNat start addrs) :
    call.InWindow (call.deviceSide byte) := by
  rcases List.mem_mapIdx.mp byte_mem with ⟨index, lt, rfl⟩
  refine ⟨(start + index) % call.aperture.toNat, Nat.mod_lt _ pos, ?_⟩
  rw [deviceSide]
  simp only
  split <;> rfl

/-- The loop works for the call, and all that it has moved lies in the window. -/
structure StaysInWindow (call : ApertureCall) (state : ApertureState) : Prop where
  dir : state.engine.dir = call.dir
  epAddr : state.request.epAddr = call.epAddr
  aperture : state.request.aperture = call.aperture
  inWindow : ∀ transfer ∈ state.transfers, ∀ byte ∈ transfer.bytes,
    call.InWindow (call.deviceSide byte)

theorem StaysInWindow.of_sameWork {other : ApertureState} (stays : call.StaysInWindow other)
    (same : state.SameWork other) : call.StaysInWindow state :=
  ⟨same.dir.trans stays.dir, same.request ▸ stays.epAddr, same.request ▸ stays.aperture,
    same.transfers ▸ stays.inWindow⟩

theorem StaysInWindow.inSpace (stays : call.StaysInWindow state)
    (space : call.request.InSpace) : state.request.InSpace where
  pos := stays.aperture ▸ space.pos
  fits := by
    rw [stays.epAddr, stays.aperture]
    exact space.fits

/-- A transfer that has been handed to the engine moves bytes in the window only. -/
theorem StaysInWindow.withTransfer (stays : call.StaysInWindow state)
    (space : call.request.InSpace) {engine : DescEngine} {request : ApertureRequest}
    {xfer : XdmaTransfer} {chain : List XdmaDesc} {count : ℕ}
    (made : state.engine.ApertureMade state.request call.blenMax call.mapped.length engine request
      xfer)
    (moves : state.engine.MovesAround state.request call.blenMax call.mapped.length engine request
      xfer chain count) (ending : TransferEnd) :
    call.StaysInWindow (state.withTransfer engine request chain ending) where
  dir := made.dir.trans stays.dir
  epAddr := made.next ▸ stays.epAddr
  aperture := made.next ▸ stays.aperture
  inWindow transfer transfer_mem byte byte_mem := by
    rcases List.mem_append.mp transfer_mem with earlier | new
    · exact stays.inWindow transfer earlier byte byte_mem
    · rw [List.mem_singleton.mp new, SubmittedTransfer.bytes, moves.bytes, stays.dir,
        stays.epAddr, stays.aperture] at byte_mem
      exact inWindow_carriedAround space.pos byte_mem

theorem StaysInWindow.round (stays : call.StaysInWindow state) (space : call.request.InSpace) :
    Loop.Meets call.StaysInWindow (fun last => call.StaysInWindow last.state)
      (call.round state) := by
  by_cases goesOn : state.request.offset < state.request.totalLen
  case neg =>
    rw [show call.round state = .inr (.left state 0) from if_neg goesOn]
    exact stays
  cases made : state.engine.apertureInit state.request call.blenMax call.mapped.length with
  | none =>
      simp only [ApertureCall.round, if_pos goesOn, made]
      exact stays
  | some init =>
      rcases init with ⟨engine, request, xfer⟩
      rcases DescEngine.apertureInit_moves (stays.inSpace space) made with ⟨chain, count, moves⟩
      have stays' := stays.withTransfer space (DescEngine.apertureInit_some made) moves
        (call.endings state.transfers.length)
      rcases round_transfer goesOn made moves.read with
        ⟨-, next, step, same⟩ | ⟨-, last, rv, step, same, -⟩
      · have counted : call.StaysInWindow { state.withTransfer engine request chain
            (call.endings state.transfers.length) with done := state.done + xfer.len.toNat } :=
          ⟨stays'.dir, stays'.epAddr, stays'.aperture, stays'.inWindow⟩
        rw [step]
        exact counted.of_sameWork same
      · rw [step]
        exact stays'.of_sameWork same

end ApertureCall

/-- A call is refused before anything has been done, or its loop works on an engine of its
direction. -/
theorem xdmaXferAperture_cases (slot : Option EngineSlot) (offline : Bool) (call : ApertureCall) :
    (∃ outcome, outcome.ret < 0 ∧ outcome.transfers = [] ∧
      ∀ rounds, xdmaXferAperture slot offline call rounds = .returned outcome) ∨
    ∃ engine : DescEngine, engine.dir = call.dir ∧ call.mapped ≠ [] ∧
      slot.map EngineSlot.engine = some engine ∧
      ∀ rounds, xdmaXferAperture slot offline call rounds =
        call.result (Loop.after call.round rounds (call.start engine)) := by
  have negative : ∀ err : EngineErrno, (SubmitOutcome.refused err).ret < 0 :=
    fun err => Int.neg_neg_of_pos err.code_pos
  have noMemory : -EngineErrno.ENOMEM.code < 0 := by decide
  cases slot with
  | none => exact Or.inl ⟨_, negative .EINVAL, rfl, fun _ => rfl⟩
  | some slot =>
      simp only [xdmaXferAperture]
      split_ifs with _ _ otherDir _ empty _ _
      · exact Or.inl ⟨_, negative .EINVAL, rfl, fun _ => rfl⟩
      · exact Or.inl ⟨_, negative .EBUSY, rfl, fun _ => rfl⟩
      · exact Or.inl ⟨_, negative .EINVAL, rfl, fun _ => rfl⟩
      · exact Or.inl ⟨_, negative .EINVAL, rfl, fun _ => rfl⟩
      · exact Or.inl ⟨_, negative .ioError, rfl, fun _ => rfl⟩
      · exact Or.inl ⟨⟨-EngineErrno.ENOMEM.code, [], _, _⟩, noMemory, rfl, fun _ => rfl⟩
      · exact Or.inl ⟨⟨-EngineErrno.ENOMEM.code, [], _, _⟩, noMemory, rfl, fun _ => rfl⟩
      · exact Or.inr ⟨slot.engine, not_not.mp otherDir, empty, rfl, fun _ => rfl⟩

/-- No byte that a call moves lies outside of the window, however long the call takes, whatever
becomes of its transfers, and however the list is cut. -/
theorem xdmaXferAperture_inWindow {call : ApertureCall} (space : call.request.InSpace)
    (slot : Option EngineSlot) (offline : Bool) (rounds : ℕ) :
    ∀ transfer ∈ (xdmaXferAperture slot offline call rounds).transfers,
      ∀ byte ∈ transfer.bytes, call.InWindow (call.deviceSide byte) := by
  rcases xdmaXferAperture_cases slot offline call with
    ⟨outcome, -, none, refused⟩ | ⟨engine, dir, -, -, runs⟩
  · rw [refused, ApertureResult.transfers, none]
    exact fun transfer transfer_mem => (List.not_mem_nil transfer_mem).elim
  have start : call.StaysInWindow (call.start engine) :=
    ⟨dir, rfl, rfl, fun transfer transfer_mem => (List.not_mem_nil transfer_mem).elim⟩
  have stays := Loop.meets_after (fun state stays => stays.round space) start rounds
  rw [runs]
  generalize Loop.after call.round rounds (call.start engine) = phase at stays ⊢
  rcases phase with state | (⟨state, rv⟩ | state)
  · exact stays.inWindow
  · exact stays.inWindow
  · exact stays.inWindow

/-- Six bytes in one entry, and a window of four bytes. -/
def sixByteCall : ApertureCall where
  write := true
  epAddr := 0x80
  aperture := 4
  dmaMapped := false
  origNents := 1
  mapped := [⟨0x1000, 6⟩]
  alloc := true
  blenMax := xdmaDescBlenMax
  endings := fun _ => .completed 0 fun _ => 0

/-- Two entries of four bytes each. -/
def twoPageCall : ApertureCall :=
  { sixByteCall with origNents := 2, mapped := [⟨0x1000, 4⟩, ⟨0x5000, 4⟩] }

/-- The call takes two transfers. -/
theorem xdmaXferAperture_inWindow_twoPageCall :
    (xdmaXferAperture (some ⟨true, nearRingEnd⟩) false twoPageCall 3).transfers.length = 2 ∧
      ∀ transfer ∈ (xdmaXferAperture (some ⟨true, nearRingEnd⟩) false twoPageCall 3).transfers,
        ∀ byte ∈ transfer.bytes, twoPageCall.InWindow (twoPageCall.deviceSide byte) :=
  ⟨by decide +kernel,
    xdmaXferAperture_inWindow ⟨by decide, by decide⟩ (some ⟨true, nearRingEnd⟩) false 3⟩

end Acai
