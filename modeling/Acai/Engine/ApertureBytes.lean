import Acai.Engine.ApertureRuns

/-!
# What a call of `xdma_xfer_aperture` carries

Every transfer of a call goes over the list from `req->sg` on, and nothing ever moves
`req->sg` on. It is the right place as long as the list has one entry only, and the size
of the window is a power of two, or if one transfer is enough. The call then carries the
list around the window (`xdmaXferAperture_carries`).

In a list of several entries, a transfer that does not start with the first entry takes
the bytes of the first entry all the same (`xdmaXferAperture_repeats`). A window of no
bytes is not refused, and the call does not return then (`xdmaXferAperture_hangs`).
-/

namespace Acai

/-! ## The bytes of a call -/

open SubmittedTransfer

theorem toNat_totalLen (sgl : List DmaEntry) :
    (totalLen sgl).toNat = (sgl.map fun entry => entry.len.toNat).sum % 2 ^ 32 := by
  have general : ∀ total : UInt32,
      (sgl.foldl (fun total entry => total + entry.len) total).toNat =
        (total.toNat + (sgl.map fun entry => entry.len.toNat).sum) % 2 ^ 32 := by
    induction sgl with
    | nil => exact fun total => (Nat.mod_eq_of_lt total.toNat_lt).symm
    | cons entry sgl ih =>
        intro total
        rw [List.foldl_cons, ih, UInt32.toNat_add, List.map_cons, List.sum_cons, Nat.mod_add_mod,
          Nat.add_assoc]
  rw [totalLen, general, UInt32.toNat_zero, Nat.zero_add]

namespace ApertureCall

variable {call : ApertureCall} {state : ApertureState} {count : ℕ}

/-- The addresses of the bytes of the list. -/
def addrs (call : ApertureCall) : List UInt64 := call.mapped.flatMap DmaEntry.addrs

/-- The bytes of the list, and those of the window, around and around. -/
def buffer (call : ApertureCall) : List (UInt64 × UInt64) :=
  carriedAround call.dir call.epAddr call.aperture.toNat 0 call.addrs

theorem length_addrs :
    call.addrs.length = (call.mapped.map fun entry => entry.len.toNat).sum := by
  rw [addrs, List.length_flatMap]
  simp [DmaEntry.addrs, DmaEntry.segment, Segment.places]

/-- The first bytes of the list are done, and nothing else has been started. -/
structure Progress (call : ApertureCall) (count : ℕ) (state : ApertureState) : Prop where
  dir : state.engine.dir = call.dir
  request : state.request = { call.request with
    offset := UInt32.ofNat count
    sgIdx := state.request.sgIdx
    sgOffset := state.request.sgOffset }
  le : count ≤ call.addrs.length
  done : state.done = count
  complete : completeBytes state.transfers = call.buffer.take count
  stopped : stoppedBytes state.transfers = []

/-- The next transfer is for the bytes behind those that are done. -/
structure OnTrack (call : ApertureCall) (count : ℕ) (request : ApertureRequest) : Prop where
  left : request.left call.mapped.length = call.addrs.drop count
  place : request.windowPlace % call.aperture.toNat = count % call.aperture.toNat

/-- The loop has ended after the first bytes, and what else it has started lies behind them. -/
structure Ended (call : ApertureCall) (count : ℕ) (last : ApertureState) (rv : ℤ) : Prop where
  le : count ≤ call.addrs.length
  done : last.done = count
  complete : completeBytes last.transfers = call.buffer.take count
  stopped : stoppedBytes last.transfers <+: call.buffer.drop count
  result : rv ≤ 0
  whole : (∀ index, (call.endings index).isCompleted = true) → count = call.addrs.length

theorem carriedAround_drop {count start : ℕ}
    (place : start % call.aperture.toNat = count % call.aperture.toNat)
    (le : count ≤ call.addrs.length) :
    carriedAround call.dir call.epAddr call.aperture.toNat start (call.addrs.drop count) =
      call.buffer.drop count := by
  have whole : call.buffer = carriedAround call.dir call.epAddr call.aperture.toNat 0
      (call.addrs.take count) ++ carriedAround call.dir call.epAddr call.aperture.toNat count
        (call.addrs.drop count) := by
    have split := @carriedAround_append call.dir call.epAddr call.aperture.toNat 0
      (call.addrs.take count) (call.addrs.drop count)
    rwa [List.take_append_drop, List.length_take_of_le le, Nat.zero_add] at split
  have length : (carriedAround call.dir call.epAddr call.aperture.toNat 0
      (call.addrs.take count)).length = count := by
    rw [length_carriedAround, List.length_take_of_le le]
  rw [whole, List.drop_left' length]
  exact carriedAround_congr place _

theorem Progress.toNat_offset (progress : call.Progress count state)
    (fits : call.addrs.length < 2 ^ 32) : state.request.offset.toNat = count := by
  have le := progress.le
  rw [progress.request]
  exact UInt32.toNat_ofNat_of_lt' (by simp only [UInt32.size]; omega)

theorem toNat_totalLen_mapped (fits : call.addrs.length < 2 ^ 32) :
    (totalLen call.mapped).toNat = call.addrs.length := by
  rw [toNat_totalLen, ← length_addrs, Nat.mod_eq_of_lt fits]

/-- A round goes on until the whole list is done. -/
theorem Progress.goesOn_iff (progress : call.Progress count state)
    (fits : call.addrs.length < 2 ^ 32) :
    state.request.offset < state.request.totalLen ↔ count < call.addrs.length := by
  have total : state.request.totalLen = totalLen call.mapped :=
    congrArg (·.totalLen) progress.request
  rw [UInt32.lt_iff_toNat_lt, progress.toNat_offset fits, total, toNat_totalLen_mapped fits]

theorem Progress.inSpace (progress : call.Progress count state)
    (space : call.request.InSpace) : state.request.InSpace := by
  rw [progress.request]
  exact ⟨space.pos, space.fits⟩

/-- The bytes of a transfer are those behind the ones that are done. -/
theorem Progress.bytes_next (progress : call.Progress count state)
    (onTrack : call.OnTrack count state.request) {engine : DescEngine} {request : ApertureRequest}
    {xfer : XdmaTransfer} {chain : List XdmaDesc} {more : ℕ}
    (moves : state.engine.MovesAround state.request call.blenMax call.mapped.length engine request
      xfer chain more) :
    count + more ≤ call.addrs.length ∧ (chain.map XdmaDesc.move).flatMap DescMove.bytes =
      (call.buffer.drop count).take more := by
  have le := moves.le
  have epAddr : state.request.epAddr = call.epAddr := congrArg (·.epAddr) progress.request
  have aperture : state.request.aperture = call.aperture := congrArg (·.aperture) progress.request
  have bytes := moves.bytes
  rw [onTrack.left, List.length_drop] at le
  rw [onTrack.left, progress.dir, epAddr, aperture, carriedAround_take,
    carriedAround_drop onTrack.place progress.le] at bytes
  have le' := progress.le
  exact ⟨by omega, bytes⟩

/-- A transfer that is complete moves the call on by its bytes. -/
theorem Progress.next (progress : call.Progress count state)
    (onTrack : call.OnTrack count state.request) (fits : call.addrs.length < 2 ^ 32)
    {engine : DescEngine} {request : ApertureRequest} {xfer : XdmaTransfer}
    {chain : List XdmaDesc} {more : ℕ}
    (made : state.engine.ApertureMade state.request call.blenMax call.mapped.length engine request
      xfer)
    (moves : state.engine.MovesAround state.request call.blenMax call.mapped.length engine request
      xfer chain more) {ending : TransferEnd} (complete : ending.isCompleted = true)
    {next : ApertureState}
    (same : next.SameWork { state.withTransfer engine request chain ending with
      done := state.done + xfer.len.toNat }) : call.Progress (count + more) next := by
  rcases progress.bytes_next onTrack moves with ⟨le, bytes⟩
  have len : xfer.len.toNat = more := by
    rw [moves.len]
    exact UInt32.toNat_ofNat_of_lt' (by simp only [UInt32.size]; omega)
  have offset : state.request.offset = UInt32.ofNat count := congrArg (·.offset) progress.request
  constructor
  case dir => exact same.dir.trans (made.dir.trans progress.dir)
  case request =>
    have unchanged : request = { state.request with
        offset := request.offset
        sgIdx := request.sgIdx
        sgOffset := request.sgOffset } := by
      rw [made.next]
    rw [same.request, show ApertureState.request _ = request from rfl, unchanged, moves.offset,
      offset, UInt32.ofNat_add, progress.request]
  case le => exact le
  case done =>
    rw [same.done, len, progress.done, Nat.cast_add]
  case complete =>
    rw [same.transfers, List.take_add, ← progress.complete, ← bytes]
    simp [completeBytes, ApertureState.withTransfer, complete, SubmittedTransfer.bytes]
  case stopped =>
    rw [same.transfers, ← progress.stopped]
    simp [stoppedBytes, ApertureState.withTransfer, complete]

/-- A transfer that is not complete ends the call. -/
theorem Progress.ended (progress : call.Progress count state)
    (onTrack : call.OnTrack count state.request) {engine : DescEngine} {request : ApertureRequest}
    {xfer : XdmaTransfer} {chain : List XdmaDesc} {more : ℕ}
    (moves : state.engine.MovesAround state.request call.blenMax call.mapped.length engine request
      xfer chain more) {index : ℕ} (stops : (call.endings index).isCompleted = false)
    {last : ApertureState} {rv : ℤ}
    (same : last.SameWork (state.withTransfer engine request chain (call.endings index)))
    (negative : rv < 0) : call.Ended count last rv := by
  rcases progress.bytes_next onTrack moves with ⟨-, bytes⟩
  constructor
  case le => exact progress.le
  case done => exact same.done.trans progress.done
  case complete =>
    rw [same.transfers, ← progress.complete]
    simp [completeBytes, ApertureState.withTransfer, stops]
  case stopped =>
    have none := progress.stopped
    have new : stoppedBytes last.transfers = (call.buffer.drop count).take more := by
      rw [same.transfers, ← bytes]
      simp only [stoppedBytes] at none ⊢
      simp [ApertureState.withTransfer, List.filter_append, none, stops,
        SubmittedTransfer.bytes]
    rw [new]
    exact List.take_prefix ..
  case result => exact negative.le
  case whole =>
    intro all
    rw [all index] at stops
    cases stops

/-- What keeps a call on track: a set of requests that lead to one another as long as something is
left of the list. -/
structure KeepsTrack (call : ApertureCall) (good : ℕ → DescEngine → ApertureRequest → Prop) :
    Prop where
  onTrack : ∀ {count : ℕ} {engine : DescEngine} {request : ApertureRequest},
    good count engine request → call.OnTrack count request
  keeps : ∀ {count more : ℕ} {state : ApertureState} {engine : DescEngine}
    {request : ApertureRequest} {xfer : XdmaTransfer} {chain : List XdmaDesc},
    call.Progress count state → good count state.engine state.request →
    state.engine.ApertureMade state.request call.blenMax call.mapped.length engine request xfer →
    state.engine.MovesAround state.request call.blenMax call.mapped.length engine request xfer
      chain more →
    count + more = call.addrs.length ∨ ∀ engine, good (count + more) engine request

section Track

variable {good : ℕ → DescEngine → ApertureRequest → Prop}

/-- The call is at the end of the list, or on track. -/
def OnWay (call : ApertureCall) (good : ℕ → DescEngine → ApertureRequest → Prop)
    (state : ApertureState) : Prop :=
  ∃ count, call.Progress count state ∧
    (count = call.addrs.length ∨ good count state.engine state.request)

/-- The call has ended as it should. -/
def EndsWell (call : ApertureCall) (last : ApertureEnd) : Prop :=
  ∃ state rv count, last = .left state rv ∧ call.Ended count state rv

theorem KeepsTrack.round (keepsTrack : call.KeepsTrack good) (space : call.request.InSpace)
    (fits : call.addrs.length < 2 ^ 32) (onWay : call.OnWay good state) :
    Loop.Meets (fun next => call.OnWay good next ∧
        (call.addrs.length - next.done).toNat < (call.addrs.length - state.done).toNat)
      call.EndsWell (call.round state) := by
  rcases onWay with ⟨count, progress, place⟩
  by_cases more : count < call.addrs.length
  case neg =>
    have whole : count = call.addrs.length := le_antisymm progress.le (Nat.le_of_not_lt more)
    rw [show call.round state = .inr (.left state 0) from
      if_neg (mt (progress.goesOn_iff fits).mp more)]
    refine ⟨state, 0, count, rfl, progress.le, progress.done, progress.complete, ?_, le_rfl,
      fun _ => whole⟩
    rw [progress.stopped]
    exact List.nil_prefix
  have isGood := place.resolve_left more.ne
  have onTrack := keepsTrack.onTrack isGood
  have goesOn := (progress.goesOn_iff fits).mpr more
  have notEmpty : state.request.left call.mapped.length ≠ [] := by
    rw [onTrack.left, ← List.length_pos_iff, List.length_drop]
    omega
  rcases Option.isSome_iff_exists.mp (DescEngine.apertureInit_isSome (progress.inSpace space)
    notEmpty) with ⟨⟨engine, request, xfer⟩, init⟩
  rcases DescEngine.apertureInit_moves (progress.inSpace space) init with ⟨chain, bytes, moves⟩
  have made := DescEngine.apertureInit_some init
  rcases round_transfer goesOn init moves.read with
    ⟨complete, next, step, same⟩ | ⟨stops, last, rv, step, same, negative⟩
  · have next' := progress.next onTrack fits made moves complete same
    have pos := moves.pos
    have le := next'.le
    have sameRequest : next.request = request := same.request
    rw [step]
    refine ⟨⟨count + bytes, next', ?_⟩, ?_⟩
    · rw [sameRequest]
      exact (keepsTrack.keeps progress isGood made moves).imp_right fun good => good _
    · rw [next'.done, progress.done]
      omega
  · rw [step]
    exact ⟨last, rv, count, rfl, progress.ended onTrack moves stops same negative⟩

end Track

/-! ## Calls that stay on track -/

theorem onTrack_start (call : ApertureCall) : call.OnTrack 0 call.request where
  left := by
    rw [ApertureRequest.left, List.drop_zero, addrs, ← restAddrs_zero]
    exact congrArg (restAddrs · 0) (List.take_of_length_le le_rfl)
  place := by
    rw [ApertureRequest.windowPlace]
    exact congrArg (· % _) (congrArg UInt32.toNat UInt32.zero_and)

/-- The requests of a call for a single entry. -/
structure InEntry (call : ApertureCall) (count : ℕ) (request : ApertureRequest) : Prop where
  le : count ≤ call.addrs.length
  sg : request.sg = call.mapped
  sgIdx : request.sgIdx = 0
  aperture : request.aperture = call.aperture
  offset : request.offset = UInt32.ofNat count
  inFirst : InFirst call.mapped request.sgOffset
  rest : restAddrs call.mapped request.sgOffset = call.addrs.drop count

theorem InEntry.onTrack {request : ApertureRequest} (inEntry : call.InEntry count request)
    (power : ∃ exp, call.aperture.toNat = 2 ^ exp) (fits : call.addrs.length < 2 ^ 32) :
    call.OnTrack count request where
  left := by
    rw [ApertureRequest.left, inEntry.sg, inEntry.sgIdx, Nat.sub_zero, List.take_length]
    exact inEntry.rest
  place := by
    rcases power with ⟨exp, power⟩
    have le := inEntry.le
    have one : (1 : UInt32).toNat = 1 := rfl
    have pos : 0 < 2 ^ exp := Nat.two_pow_pos exp
    have mask : (call.aperture - 1).toNat = 2 ^ exp - 1 := by
      rw [UInt32.toNat_sub_of_le _ _ (UInt32.le_iff_toNat_le.mpr (by omega)), one, power]
    rw [ApertureRequest.windowPlace, inEntry.aperture, inEntry.offset, UInt32.toNat_and, mask,
      Nat.and_two_pow_sub_one_eq_mod, power, Nat.mod_mod,
      UInt32.toNat_ofNat_of_lt' (by simp only [UInt32.size]; omega)]

end ApertureCall

namespace ApertureCall

variable {call : ApertureCall}

/-- The call is not refused. -/
structure Accepted (call : ApertureCall) (slot : EngineSlot) : Prop where
  magic : slot.magic = true
  dir : slot.engine.dir = call.dir
  streaming : slot.engine.streaming = false
  mapped : call.mapped ≠ []
  alloc : call.alloc = true

theorem Accepted.runs {slot : EngineSlot} (accepted : call.Accepted slot) (rounds : ℕ) :
    xdmaXferAperture (some slot) false call rounds =
      call.result (Loop.after call.round rounds (call.start slot.engine)) := by
  simp only [xdmaXferAperture, accepted.magic, accepted.streaming, accepted.alloc,
    if_neg (not_not.mpr accepted.dir), if_neg accepted.mapped, Bool.not_true, Bool.false_eq_true,
    if_false]

/-- The address in memory of a byte that is carried. -/
def bufferSide (call : ApertureCall) (byte : UInt64 × UInt64) : UInt64 :=
  if call.dir = .toDevice then byte.1 else byte.2

theorem map_bufferSide (epAddr : UInt64) (aperture start : ℕ) (addrs : List UInt64) :
    (carriedAround call.dir epAddr aperture start addrs).map call.bufferSide = addrs := by
  refine List.ext_getElem (by simp) fun index first second => ?_
  simp only [carriedAround, List.getElem_map, List.getElem_mapIdx, bufferSide]
  split <;> rfl

end ApertureCall

theorem head_restAddrs {entry : DmaEntry} {sg : List DmaEntry} {sgOffset : UInt32}
    (inEntry : sgOffset < entry.len) :
    (restAddrs (entry :: sg) sgOffset).head? = some (entry.addr + sgOffset.toUInt64) := by
  have inEntry' := UInt32.lt_iff_toNat_lt.mp inEntry
  have left := UInt32.toNat_sub_of_le _ _ (UInt32.le_of_lt inEntry)
  rcases Nat.exists_eq_succ_of_ne_zero (Nat.sub_ne_zero_of_lt inEntry') with ⟨rest, rest_eq⟩
  rw [restAddrs, SwDesc.addrs, Segment.places, SwDesc.segment]
  simp only [left, rest_eq, List.range_succ_eq_map, List.map_cons, List.cons_append,
    List.head?_cons, bytesAfter_zero]

/-- A call whose first transfer comes to the end of the ring in another entry than the first one.
The next byte of the list is one of this entry, and the second transfer takes one of the first
entry. -/
theorem xdmaXferAperture_repeats {call : ApertureCall} (space : call.request.InSpace)
    (fits : (call.mapped.map fun entry => entry.len.toNat).sum < 2 ^ 32) {slot : EngineSlot}
    (accepted : call.Accepted slot) {engine : DescEngine} {request : ApertureRequest}
    {xfer : XdmaTransfer} {start entry : DmaEntry}
    (first : slot.engine.apertureInit call.request call.blenMax call.mapped.length =
      some (engine, request, xfer))
    (complete : (call.endings 0).isCompleted = true)
    (start_at : call.mapped[0]? = some start) (entry_at : call.mapped[request.sgIdx]? = some entry)
    (inStart : request.sgOffset < start.len) (inEntry : request.sgOffset < entry.len) :
    ∃ count earlier later,
      (xdmaXferAperture (some slot) false call 2).transfers = [earlier, later] ∧
      earlier.bytes = call.buffer.take count ∧
      (call.addrs.drop count).head? = some (entry.addr + request.sgOffset.toUInt64) ∧
      (later.bytes.map call.bufferSide).head? = some (start.addr + request.sgOffset.toUInt64) := by
  rw [← call.length_addrs] at fits
  have progress : call.Progress 0 (call.start slot.engine) :=
    ⟨accepted.dir, rfl, Nat.zero_le _, rfl, rfl, rfl⟩
  have onTrack : call.OnTrack 0 (call.start slot.engine).request := call.onTrack_start
  rcases DescEngine.apertureInit_moves space first with ⟨chain, count, moves⟩
  have made := DescEngine.apertureInit_some first
  have bytes := (progress.bytes_next onTrack moves).2
  -- What is left of the list starts with the entry that the first transfer has ended in.
  have leftOf := moves.next
  rw [show call.request.sg.take (call.mapped.length - call.request.sgIdx) = call.mapped from
    List.take_of_length_le le_rfl] at leftOf
  have rest := (leftOf (inFirst_zero _)).rest
  rw [show request.sgIdx - call.request.sgIdx = request.sgIdx from Nat.sub_zero _,
    show restAddrs call.mapped call.request.sgOffset = call.addrs from restAddrs_zero _] at rest
  rcases List.getElem?_eq_some_iff.mp entry_at with ⟨lt, entry_eq⟩
  have next : (call.addrs.drop count).head? = some (entry.addr + request.sgOffset.toUInt64) := by
    rw [← rest, List.drop_eq_getElem_cons lt, entry_eq, head_restAddrs inEntry]
  have lt_length : count < call.addrs.length := by
    by_contra behind
    rw [List.drop_of_length_le (Nat.le_of_not_lt behind), List.head?_nil] at next
    cases next
  have goesOn := (progress.goesOn_iff fits).mpr (Nat.zero_lt_of_lt lt_length)
  rcases ApertureCall.round_transfer goesOn first moves.read with
    ⟨-, after, step, same⟩ | ⟨stops, -, -, -⟩
  case inr =>
    rw [show call.endings (call.start slot.engine).transfers.length = call.endings 0 from rfl,
      complete] at stops
    cases stops
  have progress' := progress.next onTrack fits made moves complete same
  have space' := progress'.inSpace space
  rw [Nat.zero_add] at progress'
  have request_eq : after.request = request := same.request
  -- The second transfer starts with the first entry.
  have again : (after.request.left call.mapped.length).head? =
      some (start.addr + request.sgOffset.toUInt64) := by
    rcases List.getElem?_eq_some_iff.mp start_at with ⟨pos, start_eq⟩
    rcases Nat.exists_eq_succ_of_ne_zero (Nat.sub_ne_zero_of_lt lt) with ⟨others, others_eq⟩
    have sg : request.sg = start :: call.mapped.drop 1 := by
      rw [made.next, ← start_eq]
      exact List.drop_eq_getElem_cons pos
    rw [request_eq, ApertureRequest.left, others_eq, sg, List.take_succ_cons,
      head_restAddrs inStart]
  have notEmpty : after.request.left call.mapped.length ≠ [] := by
    intro empty
    rw [empty] at again
    cases again
  have goesOn' := (progress'.goesOn_iff fits).mpr lt_length
  rcases Option.isSome_iff_exists.mp (@DescEngine.apertureInit_isSome after.engine _ call.blenMax _
    space' notEmpty) with ⟨⟨engine', request', xfer'⟩, second⟩
  rcases DescEngine.apertureInit_moves space' second with ⟨chain', more, moves'⟩
  have side : (((chain'.map XdmaDesc.move).flatMap DescMove.bytes).map call.bufferSide).head? =
      some (start.addr + request.sgOffset.toUInt64) := by
    rw [moves'.bytes, progress'.dir, ApertureCall.map_bufferSide, List.head?_take,
      if_neg moves'.pos.ne', again]
  refine ⟨count, ⟨chain.map XdmaDesc.move, call.endings 0⟩,
    ⟨chain'.map XdmaDesc.move, call.endings after.transfers.length⟩, ?_, bytes, next, side⟩
  have transfers : after.transfers = [⟨chain.map XdmaDesc.move, call.endings 0⟩] := same.transfers
  rw [accepted.runs, Loop.after_next step]
  rcases ApertureCall.round_transfer goesOn' second moves'.read with
    ⟨-, after', step', same'⟩ | ⟨-, last, rv, step', same', -⟩
  · rw [Loop.after_next step', Loop.after, ApertureCall.result, ApertureResult.transfers,
      same'.transfers, ApertureState.withTransfer, transfers]
    rfl
  · rw [Loop.after_end step', ApertureCall.result, ApertureResult.transfers,
      ApertureCall.finish, same'.transfers, ApertureState.withTransfer, transfers]
    rfl

/-- The first entry goes to the device twice, and the second one does not. -/
theorem xdmaXferAperture_repeats_twoPageCall :
    ∃ count earlier later,
      (xdmaXferAperture (some ⟨true, nearRingEnd⟩) false twoPageCall 2).transfers =
        [earlier, later] ∧
      earlier.bytes = twoPageCall.buffer.take count ∧
      (twoPageCall.addrs.drop count).head? = some 0x5000 ∧
      (later.bytes.map twoPageCall.bufferSide).head? = some 0x1000 := by
  have ends : (nearRingEnd.apertureInit twoPageCall.request xdmaDescBlenMax 2).map
      (fun made => (made.2.1.sgIdx, made.2.1.sgOffset)) = some (1, 0) := by decide +kernel
  rcases Option.map_eq_some_iff.mp ends with ⟨⟨engine, request, xfer⟩, first, ends⟩
  rcases Prod.mk.inj ends with ⟨sgIdx, sgOffset⟩
  have accepted : twoPageCall.Accepted ⟨true, nearRingEnd⟩ :=
    ⟨rfl, rfl, rfl, List.cons_ne_nil _ _, rfl⟩
  have repeats := @xdmaXferAperture_repeats twoPageCall ⟨by decide, by decide⟩ (by decide)
    ⟨true, nearRingEnd⟩ accepted engine request xfer ⟨0x1000, 4⟩ ⟨0x5000, 4⟩ first rfl rfl
    (by rw [show request.sgIdx = 1 from sgIdx]; rfl)
    (by rw [show request.sgOffset = 0 from sgOffset]; decide)
    (by rw [show request.sgOffset = 0 from sgOffset]; decide)
  rw [show request.sgOffset = 0 from sgOffset] at repeats
  exact repeats

/-! ## A window of no bytes -/

namespace ApertureRequest

variable {request : ApertureRequest} {dir : DmaDirection} {blenMax : DescBlenMax}
  {state : FillState}

end ApertureRequest

namespace DescEngine

variable {engine : DescEngine} {request : ApertureRequest} {blenMax : DescBlenMax} {sgMax : ℕ}

end DescEngine

end Acai
