import Acai.Guest.Faulthook

/-!
# Escape-data transfer

`transfer_chunk_to_host` hands a buffer of any size to the host: a handshake
announces the size and learns how much fits on the page, then the buffer goes
over in chunks, one escape for each. The handshake and the chunk header are the
members of one union, so each chunk overwrites the handshake.

The announced size is a 32-bit field. A larger buffer is announced truncated, and
the host then refuses the first chunk that does not fit, so that the transfer
fails but never delivers a wrong buffer. The proof follows the loop with one
invariant, `Receiving`: the host has the bytes that the guest no longer counts as
remaining.
-/

namespace Acai

/-- The end of `transfer_chunk_to_host`: check the status that the host left. -/
def transferEnd (ret : ℤ) : Prog ℤ := do
  let status ← Prog.loadInt ActionTransferEscapeData.status
  if status ≠ TransferStatus.ok.code then pure (-1) else pure ret

def sendChunk (data : List UInt8) (transfer sizeRemain : ℕ) : Prog ℤ := do
  Prog.storeBytes ActionTransferEscapeData.chunkData
    ((data.drop (data.length - sizeRemain)).take transfer)
  Prog.storeField ActionTransferEscapeData.chunkDataSize transfer
  Prog.storeInt ActionTransferEscapeData.status TransferStatus.transferData.code
  fhDoFaulthook .transferEscapeData

/-- The loop of `transfer_chunk_to_host`, unrolled `fuel` times. -/
def transferRounds (data : List UInt8) (transferSize : ℕ) : ℕ → ℕ → Prog ℤ
  | 0, _ => .diverge
  | fuel + 1, sizeRemain => do
      let transfer := min transferSize sizeRemain
      let ret ← sendChunk data transfer sizeRemain
      if ret ≠ 0 then transferEnd ret
      else
        let status ← Prog.loadInt ActionTransferEscapeData.status
        if status = TransferStatus.ok.code ∧ 0 < sizeRemain - transfer then
          transferRounds data transferSize fuel (sizeRemain - transfer)
        else transferEnd ret

def sendHandshake (size : ℕ) (infoCtx : Int32) : Prog ℤ := do
  Prog.storeInt ActionTransferEscapeData.status TransferStatus.transferSize.code
  Prog.storeField ActionTransferEscapeData.totalSize size
  Prog.storeField ActionTransferEscapeData.chunkSize 0
  Prog.storeInt ActionTransferEscapeData.infoCtx infoCtx.toInt
  fhDoFaulthook .transferEscapeData

/-- `transfer_chunk_to_host`, with its loop unrolled `fuel` times. -/
def transferChunkToHost (fuel : ℕ) (data : List UInt8) (infoCtx : Int32) : Prog ℤ :=
  if data.length = 0 then pure 0
  else do
    let ret ← sendHandshake data.length infoCtx
    if ret ≠ 0 then pure ret
    else
      let transferSize ← Prog.loadField ActionTransferEscapeData.chunkSize
      transferRounds data transferSize fuel data.length

/-- The host holds exactly `data`, received for `infoCtx`. -/
structure Delivered (data : List UInt8) (infoCtx : Int32) (state : TransferState) : Prop where
  buffer : ∃ buffer, state.ptr = some buffer ∧ buffer.readBytes 0 data.length = data
  size : state.size = data.length
  chunk : state.chunk = data.length
  infoCtx : state.infoCtx = (infoCtx.toInt % 2 ^ 64).toNat

/-- A manager in the state `start` has since received all but `sizeRemain` bytes of `data`,
announced as `total` bytes. -/
structure Receiving (start : Manager) (data : List UInt8) (infoCtx : Int32)
    (total sizeRemain : ℕ) (host : Host) : Prop where
  serving : host.serving = true
  buffer : ∃ buffer, host.manager.transfer.ptr = some buffer ∧
    buffer.readBytes 0 (data.length - sizeRemain) = data.take (data.length - sizeRemain)
  size : host.manager.transfer.size = total
  chunk : host.manager.transfer.chunk = data.length - sizeRemain
  infoCtx : host.manager.transfer.infoCtx = (infoCtx.toInt % 2 ^ 64).toNat
  ctx : host.manager.ctx = start.ctx
  calls : host.manager.calls = start.calls

theorem Receiving.delivered {start : Manager} {data : List UInt8} {infoCtx : Int32} {host : Host}
    (received : Receiving start data infoCtx data.length 0 host) :
    Delivered data infoCtx host.manager.transfer where
  buffer := by simpa using received.buffer
  size := received.size
  chunk := received.chunk
  infoCtx := received.infoCtx

/-! ## One chunk -/

def chunkPage (page : ByteMem) (bytes : List UInt8) : ByteMem :=
  ((page.writeBytes ActionTransferEscapeData.chunkData bytes).set
    ActionTransferEscapeData.chunkDataSize bytes.length).setInt
    ActionTransferEscapeData.status TransferStatus.transferData.code

theorem chunkPage_status (page : ByteMem) (bytes : List UInt8) :
    (chunkPage page bytes).getInt ActionTransferEscapeData.status =
      TransferStatus.transferData.code := by
  rw [chunkPage, ByteMem.getInt_setInt_same]
  decide

theorem chunkPage_chunkDataSize {page : ByteMem} {bytes : List UInt8}
    (fits : bytes.length < 2 ^ 32) :
    (chunkPage page bytes).get ActionTransferEscapeData.chunkDataSize = bytes.length := by
  rw [chunkPage, ByteMem.get_setInt_of_disjoint (by decide), ByteMem.get_set_same]
  exact Nat.mod_eq_of_lt fits

theorem chunkPage_chunkData (page : ByteMem) (bytes : List UInt8) :
    (chunkPage page bytes).readBytes ActionTransferEscapeData.chunkData bytes.length = bytes := by
  have status : Field.Disjoint ActionTransferEscapeData.status
      ⟨ActionTransferEscapeData.chunkData, bytes.length⟩ := by
    left
    dsimp only
    decide
  have size : Field.Disjoint ActionTransferEscapeData.chunkDataSize
      ⟨ActionTransferEscapeData.chunkData, bytes.length⟩ := by
    left
    dsimp only
    decide
  rw [chunkPage, ByteMem.setInt, ByteMem.readBytes_set_of_disjoint status,
    ByteMem.readBytes_set_of_disjoint size, ByteMem.readBytes_writeBytes_same]

def nextChunk (data : List UInt8) (transferSize sizeRemain : ℕ) : List UInt8 :=
  (data.drop (data.length - sizeRemain)).take (min transferSize sizeRemain)

theorem length_nextChunk {data : List UInt8} (transferSize : ℕ) {sizeRemain : ℕ}
    (remains : sizeRemain ≤ data.length) :
    (nextChunk data transferSize sizeRemain).length = min transferSize sizeRemain := by
  simp [nextChunk]
  omega

theorem transferMax_lt : transferMax < 2 ^ 32 := by decide

theorem transferMax_pos : 0 < transferMax := by decide

theorem run_sendChunk {σ : Type} (answer : σ → ByteMem → σ × ByteMem) {data : List UInt8}
    (transferSize : ℕ) {sizeRemain : ℕ} (remains : sizeRemain ≤ data.length) (machine : Machine σ) :
    (sendChunk data (min transferSize sizeRemain) sizeRemain).run answer machine =
      (fhDoFaulthook .transferEscapeData).run answer
        { machine with
          page := chunkPage machine.page (nextChunk data transferSize sizeRemain) } := by
  rw [chunkPage, length_nextChunk transferSize remains]
  simp only [sendChunk, Prog.run_bind, Prog.run_storeBytes, Prog.andThen_done,
    Prog.run_storeField, Prog.run_storeInt, nextChunk]

def offeredPage (nonce : ℕ) (page : ByteMem) (bytes : List UInt8) : ByteMem :=
  escapePage .transferEscapeData nonce (chunkPage page bytes)

section

variable (outcome : FaultOutcome) {manager : Manager} (page : ByteMem) (nonce : ℕ)
  {bytes : List UInt8}

theorem handleAction_offeredPage :
    handleAction outcome manager (offeredPage nonce page bytes) =
      transferChunk manager (offeredPage nonce page bytes) := by
  have known : FhAction.ofCode ((offeredPage nonce page bytes).get FaultData.action) =
      some .transferEscapeData := by
    rw [offeredPage, escapePage_action, FhAction.ofCode_code]
  have status : (offeredPage nonce page bytes).getInt ActionTransferEscapeData.status =
      TransferStatus.transferData.code := by
    rw [offeredPage, getInt_escapePage (by decide), chunkPage_status]
  have isChunk : TransferStatus.transferData.code ≠ TransferStatus.transferSize.code := by decide
  simp only [handleAction, known, doActionTransferEscapeData, status, isChunk, ↓reduceIte]

theorem chunkTransfer_offeredPage (fits : bytes.length ≤ transferMax) :
    chunkTransfer (offeredPage nonce page bytes) = bytes.length := by
  rw [chunkTransfer, offeredPage, get_escapePage (by decide),
    chunkPage_chunkDataSize (fits.trans_lt transferMax_lt)]
  omega

theorem handleAction_chunk_accepted {buffer : ByteMem} (fits : bytes.length ≤ transferMax)
    (allocated : manager.transfer.ptr = some buffer)
    (inBounds : u64 (manager.transfer.chunk + bytes.length) ≤ manager.transfer.size) :
    handleAction outcome manager (offeredPage nonce page bytes) =
      some (0,
        { manager with
          transfer :=
            { manager.transfer with
              ptr := some (buffer.writeBytes manager.transfer.chunk bytes)
              chunk := u64 (manager.transfer.chunk + bytes.length) } },
        (offeredPage nonce page bytes).setInt ActionTransferEscapeData.status
          TransferStatus.ok.code) := by
  have content : (offeredPage nonce page bytes).readBytes ActionTransferEscapeData.chunkData
      bytes.length = bytes := by
    rw [offeredPage, readBytes_escapePage (by decide), chunkPage_chunkData]
  rw [handleAction_offeredPage]
  simp only [transferChunk, chunkTransfer_offeredPage page nonce fits, not_lt.mpr inBounds,
    ↓reduceIte,
    allocated, content]

theorem handleAction_chunk_refused (fits : bytes.length ≤ transferMax)
    (outOfBounds : manager.transfer.size < u64 (manager.transfer.chunk + bytes.length)) :
    handleAction outcome manager (offeredPage nonce page bytes) =
      some (-1, manager, offeredPage nonce page bytes) := by
  rw [handleAction_offeredPage]
  simp only [transferChunk, chunkTransfer_offeredPage page nonce fits, outOfBounds, ↓reduceIte]

end

section

variable {start : Manager} {data : List UInt8} {infoCtx : Int32} {total sizeRemain : ℕ}
  {machine : Machine Host}

theorem run_sendChunk_accepted
    (receiving : Receiving start data infoCtx total sizeRemain machine.peer)
    (remains : sizeRemain ≤ data.length) (bounded : data.length < 2 ^ 64)
    (inBounds : data.length - sizeRemain + min transferMax sizeRemain ≤ total) :
    ∃ final, (sendChunk data (min transferMax sizeRemain) sizeRemain).run Host.onEscape machine =
        (.done 0, final) ∧
      Receiving start data infoCtx total (sizeRemain - min transferMax sizeRemain) final.peer ∧
      final.page.getInt ActionTransferEscapeData.status = TransferStatus.ok.code := by
  rcases receiving.buffer with ⟨buffer, allocated, received⟩
  have length := length_nextChunk transferMax remains
  have noWrap : u64 (machine.peer.manager.transfer.chunk +
      (nextChunk data transferMax sizeRemain).length) =
      data.length - (sizeRemain - min transferMax sizeRemain) := by
    rw [receiving.chunk, length, u64]
    omega
  have handled := handleAction_chunk_accepted machine.peer.outcome machine.page
    (machine.counter + 1) (length.le.trans (by omega)) allocated
    (by rw [noWrap, receiving.size]; omega)
  rw [run_sendChunk Host.onEscape transferMax remains]
  refine ⟨_, run_fhDoFaulthook_of_handled receiving.serving handled le_rfl, ?_, ?_⟩
  · refine ⟨receiving.serving, ⟨_, rfl, ?_⟩, receiving.size, noWrap, receiving.infoCtx,
      receiving.ctx, receiving.calls⟩
    have grown : data.length - (sizeRemain - min transferMax sizeRemain) =
        data.length - sizeRemain + (nextChunk data transferMax sizeRemain).length := by omega
    rw [grown, receiving.chunk, ByteMem.readBytes_add,
      ByteMem.readBytes_writeBytes_of_disjoint (Or.inr (by simp)), received, Nat.zero_add,
      ByteMem.readBytes_writeBytes_same, length, List.take_add, nextChunk]
  · rw [ByteMem.getInt_set_of_disjoint (by decide), ByteMem.getInt_setInt_same]
    decide

theorem run_sendChunk_refused
    (receiving : Receiving start data infoCtx total sizeRemain machine.peer)
    (remains : sizeRemain ≤ data.length) (bounded : data.length < 2 ^ 64)
    (outOfBounds : total < data.length - sizeRemain + min transferMax sizeRemain) :
    ∃ final, (sendChunk data (min transferMax sizeRemain) sizeRemain).run Host.onEscape machine =
        (.done (-Errno.ENXIO.code), final) ∧
      final.page.getInt ActionTransferEscapeData.status ≠ TransferStatus.ok.code := by
  have length := length_nextChunk transferMax remains
  have beyond : machine.peer.manager.transfer.size <
      u64 (machine.peer.manager.transfer.chunk +
        (nextChunk data transferMax sizeRemain).length) := by
    rw [receiving.chunk, receiving.size, length, u64]
    omega
  have handled := handleAction_chunk_refused machine.peer.outcome machine.page
    (machine.counter + 1) (length.le.trans (by omega)) beyond
  have turn := escapePage_turn .transferEscapeData (machine.counter + 1)
    (chunkPage machine.page (nextChunk data transferMax sizeRemain))
  rw [run_sendChunk Host.onEscape transferMax remains]
  refine ⟨_, run_fhDoFaulthook_of_notCompleted (Or.inr ?_), ?_⟩
  · exact Host.completes_of_refused turn handled (by decide)
  · simp only [Machine.answered, escaping]
    rw [Host.onEscape_of_refused receiving.serving turn handled (by decide), offeredPage,
      getInt_escapePage (by decide), chunkPage_status]
    decide

/-! ## The loop -/

theorem run_transferEnd {σ : Type} (answer : σ → ByteMem → σ × ByteMem) (ret : ℤ)
    (machine : Machine σ) :
    (transferEnd ret).run answer machine =
      (.done (if machine.page.getInt ActionTransferEscapeData.status ≠ TransferStatus.ok.code
        then -1 else ret), machine) := by
  rw [transferEnd, Prog.run_bind_of_done _ (Prog.run_loadInt _ _ machine)]
  split <;> rfl

/-- The loop ends, and it succeeds exactly when the whole buffer fits into the announced size;
the host has then received all of it. -/
theorem run_transferRounds (receiving : Receiving start data infoCtx total sizeRemain machine.peer)
    (remains : sizeRemain ≤ data.length) (pos : 0 < sizeRemain)
    (bounded : data.length < 2 ^ 64) :
    ∃ ret final, (∀ fuel, sizeRemain ≤ fuel →
        (transferRounds data transferMax fuel sizeRemain).run Host.onEscape machine =
          (.done ret, final)) ∧
      (ret = 0 ↔ data.length ≤ total) ∧
      (ret = 0 → Receiving start data infoCtx total 0 final.peer) := by
  induction sizeRemain using Nat.strong_induction_on generalizing machine with
  | _ sizeRemain ih =>
    have max_pos := transferMax_pos
    rcases lt_or_ge total (data.length - sizeRemain + min transferMax sizeRemain) with
      outOfBounds | inBounds
    · rcases run_sendChunk_refused receiving remains bounded outOfBounds
        with ⟨final, refused, status⟩
      refine ⟨-1, final, ?_, by omega, by omega⟩
      intro fuel enough
      rcases Nat.exists_eq_add_one_of_ne_zero (show fuel ≠ 0 by omega) with ⟨fuel, rfl⟩
      have failed : -Errno.ENXIO.code ≠ 0 := by decide
      rw [transferRounds, Prog.run_bind_of_done _ refused, if_pos failed, run_transferEnd,
        if_pos status]
    · rcases run_sendChunk_accepted receiving remains bounded inBounds
        with ⟨next, accepted, receiving', status⟩
      have round : ∀ fuel, (transferRounds data transferMax (fuel + 1) sizeRemain).run
          Host.onEscape machine =
            (if TransferStatus.ok.code = TransferStatus.ok.code ∧
                0 < sizeRemain - min transferMax sizeRemain then
              transferRounds data transferMax fuel (sizeRemain - min transferMax sizeRemain)
            else transferEnd 0).run Host.onEscape next := by
        intro fuel
        rw [transferRounds, Prog.run_bind_of_done _ accepted, if_neg (by decide),
          Prog.run_bind_of_done _ (Prog.run_loadInt _ _ next), status]
      by_cases more : 0 < sizeRemain - min transferMax sizeRemain
      · rcases ih (sizeRemain - min transferMax sizeRemain) (by omega) receiving' (by omega) more
          with ⟨ret, final, ran, returned, received⟩
        refine ⟨ret, final, ?_, returned, received⟩
        intro fuel enough
        rcases Nat.exists_eq_add_one_of_ne_zero (show fuel ≠ 0 by omega) with ⟨fuel, rfl⟩
        rw [round, if_pos ⟨rfl, more⟩, ran fuel (by omega)]
      · have last : sizeRemain - min transferMax sizeRemain = 0 := by omega
        rw [last] at receiving'
        refine ⟨0, next, ?_, by simp; omega, fun _ => receiving'⟩
        intro fuel enough
        rcases Nat.exists_eq_add_one_of_ne_zero (show fuel ≠ 0 by omega) with ⟨fuel, rfl⟩
        rw [round, if_neg (by simp [last]), run_transferEnd, if_neg (by simp [status])]

/-! ## The handshake -/

def handshakePage (page : ByteMem) (size : ℕ) (infoCtx : Int32) : ByteMem :=
  (((page.setInt ActionTransferEscapeData.status TransferStatus.transferSize.code).set
    ActionTransferEscapeData.totalSize size).set
    ActionTransferEscapeData.chunkSize 0).setInt
    ActionTransferEscapeData.infoCtx infoCtx.toInt

theorem handshakePage_status (page : ByteMem) (size : ℕ) (infoCtx : Int32) :
    (handshakePage page size infoCtx).getInt ActionTransferEscapeData.status =
      TransferStatus.transferSize.code := by
  rw [handshakePage, ByteMem.getInt_setInt_of_disjoint (by decide),
    ByteMem.getInt_set_of_disjoint (by decide), ByteMem.getInt_set_of_disjoint (by decide),
    ByteMem.getInt_setInt_same]
  decide

theorem handshakePage_totalSize (page : ByteMem) (size : ℕ) (infoCtx : Int32) :
    (handshakePage page size infoCtx).get ActionTransferEscapeData.totalSize = size % 2 ^ 32 := by
  rw [handshakePage, ByteMem.get_setInt_of_disjoint (by decide),
    ByteMem.get_set_of_disjoint (by decide), ByteMem.get_set_same]
  rfl

theorem handshakePage_infoCtx (page : ByteMem) (size : ℕ) (infoCtx : Int32) :
    (handshakePage page size infoCtx).get ActionTransferEscapeData.infoCtx =
      (infoCtx.toInt % 2 ^ 64).toNat := by
  rw [handshakePage, ByteMem.setInt, ByteMem.get_set_same]
  have width : (256 : ℤ) ^ ActionTransferEscapeData.infoCtx.width = 2 ^ 64 := by decide
  have width' : 256 ^ ActionTransferEscapeData.infoCtx.width = 2 ^ 64 := by decide
  rw [width, width', Nat.mod_eq_of_lt (by omega)]

theorem run_sendHandshake {σ : Type} (answer : σ → ByteMem → σ × ByteMem) (size : ℕ)
    (infoCtx : Int32) (machine : Machine σ) :
    (sendHandshake size infoCtx).run answer machine =
      (fhDoFaulthook .transferEscapeData).run answer
        { machine with page := handshakePage machine.page size infoCtx } := by
  simp only [sendHandshake, Prog.run_bind, Prog.andThen_done, Prog.run_storeField,
    Prog.run_storeInt, handshakePage]

theorem handleAction_handshake (outcome : FaultOutcome) (manager : Manager) (page : ByteMem)
    (size nonce : ℕ) (infoCtx : Int32) :
    handleAction outcome manager
        (escapePage .transferEscapeData nonce (handshakePage page size infoCtx)) =
      some (transferHandshake outcome manager
        (escapePage .transferEscapeData nonce (handshakePage page size infoCtx))) := by
  simp only [handleAction, escapePage_action, FhAction.ofCode_code, doActionTransferEscapeData]
  rw [getInt_escapePage (by decide), handshakePage_status, if_pos rfl]

theorem run_sendHandshake_started (data : List UInt8) (infoCtx : Int32) {block : ByteMem}
    (serving : machine.peer.serving = true)
    (allocated : machine.peer.outcome.malloc = some block) :
    ∃ final, (sendHandshake data.length infoCtx).run Host.onEscape machine = (.done 0, final) ∧
      Receiving machine.peer.manager data infoCtx (data.length % 2 ^ 32) data.length final.peer ∧
      final.page.get ActionTransferEscapeData.chunkSize = transferMax := by
  have handled := handleAction_handshake machine.peer.outcome machine.peer.manager machine.page
    data.length (machine.counter + 1) infoCtx
  simp only [transferHandshake, allocated] at handled
  rw [run_sendHandshake]
  refine ⟨_, run_fhDoFaulthook_of_handled serving handled le_rfl, ?_, ?_⟩
  · refine ⟨serving, ⟨block, rfl, by simp [ByteMem.readBytes]⟩, ?_, (Nat.sub_self _).symm, ?_,
      rfl, rfl⟩
    · simp only [Host.completing]
      rw [ByteMem.get_set_of_disjoint (by decide), get_escapePage (by decide),
        handshakePage_totalSize]
    · simp only [Host.completing]
      rw [ByteMem.get_set_of_disjoint (by decide), get_escapePage (by decide),
        handshakePage_infoCtx]
  · rw [ByteMem.get_set_of_disjoint (by decide), ByteMem.get_setInt_of_disjoint (by decide),
      ByteMem.get_set_same]
    decide

theorem run_sendHandshake_failed (data : List UInt8) (infoCtx : Int32)
    (unable : machine.peer.serving = false ∨ machine.peer.outcome.malloc = none) :
    ∃ final, (sendHandshake data.length infoCtx).run Host.onEscape machine =
      (.done (-Errno.ENXIO.code), final) := by
  rw [run_sendHandshake]
  refine ⟨_, run_fhDoFaulthook_of_notCompleted ?_⟩
  rcases unable with ended | noMemory
  · exact Or.inl ended
  · right
    have handled := handleAction_handshake machine.peer.outcome machine.peer.manager machine.page
      data.length (machine.counter + 1) infoCtx
    simp only [transferHandshake, noMemory] at handled
    exact Host.completes_of_refused (escapePage_turn _ _ _) handled (by decide)

end

/-- The outcome of a transfer is independent of how far its loop is unrolled beyond the size. -/
theorem run_transferChunkToHost {data : List UInt8} (infoCtx : Int32) (machine : Machine Host)
    (nonempty : 0 < data.length) (bounded : data.length < 2 ^ 64) :
    ∃ ret final, (∀ fuel, data.length ≤ fuel →
        (transferChunkToHost fuel data infoCtx).run Host.onEscape machine = (.done ret, final)) ∧
      (ret = 0 ↔ machine.peer.serving = true ∧ machine.peer.outcome.malloc ≠ none ∧
        data.length < 2 ^ 32) ∧
      (ret = 0 → Receiving machine.peer.manager data infoCtx data.length 0 final.peer) := by
  by_cases unable : machine.peer.serving = false ∨ machine.peer.outcome.malloc = none
  · rcases run_sendHandshake_failed data infoCtx unable with ⟨final, failed⟩
    have nonzero : -Errno.ENXIO.code ≠ 0 := by decide
    refine ⟨-Errno.ENXIO.code, final, ?_, ⟨fun zero => absurd zero nonzero, ?_⟩,
      fun zero => absurd zero nonzero⟩
    · intro fuel _
      rw [transferChunkToHost, if_neg nonempty.ne', Prog.run_bind_of_done _ failed,
        if_pos nonzero, Prog.run_pure]
    · rintro ⟨serving, allocated, -⟩
      rcases unable with ended | noMemory
      · rw [ended] at serving
        cases serving
      · exact absurd noMemory allocated
  · rcases not_or.mp unable with ⟨running, allocated⟩
    have serving : machine.peer.serving = true := by simpa using running
    rcases Option.ne_none_iff_exists'.mp allocated with ⟨block, block_eq⟩
    rcases run_sendHandshake_started data infoCtx serving block_eq
      with ⟨started, handshake, receiving, chunkSize⟩
    rcases run_transferRounds receiving le_rfl nonempty bounded
      with ⟨ret, final, ran, returned, received⟩
    have fits : data.length ≤ data.length % 2 ^ 32 ↔ data.length < 2 ^ 32 := by omega
    refine ⟨ret, final, ?_, ?_, ?_⟩
    · intro fuel enough
      rw [transferChunkToHost, if_neg nonempty.ne', Prog.run_bind_of_done _ handshake,
        if_neg (by decide), Prog.run_bind_of_done _ (Prog.run_loadField _ _ started), chunkSize,
        ran fuel enough]
    · rw [returned, fits]
      exact ⟨fun small => ⟨serving, allocated, small⟩, fun success => success.2.2⟩
    · intro success
      have small := fits.mp (returned.mp success)
      rw [Nat.mod_eq_of_lt small] at received
      exact received success

/--
A transfer of any buffer ends; when it returns 0, the host holds exactly the
data. It does return 0 when the size fits into 32 bits, the listener runs and the
host's allocation succeeds.
-/
theorem transferChunkToHost_delivers (data : List UInt8) (infoCtx : Int32)
    (machine : Machine Host) (nonempty : 0 < data.length) (bounded : data.length < 2 ^ 64) :
    ∃ rounds ret final, (∀ fuel, rounds ≤ fuel →
        (transferChunkToHost fuel data infoCtx).run Host.onEscape machine = (.done ret, final)) ∧
      (ret = 0 → Delivered data infoCtx final.peer.manager.transfer) ∧
      (machine.peer.serving = true → machine.peer.outcome.malloc ≠ none →
        data.length < 2 ^ 32 → ret = 0) := by
  rcases run_transferChunkToHost infoCtx machine nonempty bounded
    with ⟨ret, final, ran, returned, received⟩
  exact ⟨data.length, ret, final, ran, fun success => (received success).delivered,
    fun serving allocated small => returned.mpr ⟨serving, allocated, small⟩⟩

theorem transferChunkToHost_delivers_bytes :
    ∃ rounds final, (∀ fuel, rounds ≤ fuel →
        (transferChunkToHost fuel [1, 2, 3] 30).run Host.onEscape Machine.cleared =
          (.done 0, final)) ∧
      Delivered [1, 2, 3] 30 final.peer.manager.transfer := by
  rcases transferChunkToHost_delivers [1, 2, 3] 30 Machine.cleared (by decide) (by decide)
    with ⟨rounds, ret, final, ran, delivered, returns⟩
  rcases returns rfl (Option.some_ne_none _) (by decide) with rfl
  exact ⟨rounds, final, ran, delivered rfl⟩

end Acai
