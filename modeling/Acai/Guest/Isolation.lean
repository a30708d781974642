import Acai.Guest.FileOps
import Acai.Lib.Interleaving

/-!
# Isolation between the guest's file operations

Any number of threads of the guest run file operations at the same time, and all
of them share one escape page. The operations that take `faultdata_lock` make
all their accesses to the page in one critical section. `fh_bridge_mmap` and
`fh_char_ctrl_ioctl` do not take the lock: their stores can fall between the
stores of another operation and its escape, which then serves the wrong request.

As long as the accesses of these two operations are not mixed with those of
another one, every operation is isolated, and the host is only served with
requests of the operation that escapes.

One thread runs one operation; a caller that makes several calls is as many
threads, scheduled one after the other.
-/

namespace Acai

/-! ## The operations and the lock -/

section

open Prog

@[simp]
theorem lockFree_fhDoFaulthook (action : FhAction) : (fhDoFaulthook action).LockFree := by
  rw [fhDoFaulthook]
  refine LockFree.bind (by simp) fun nonce => ?_
  refine LockFree.bind (by simp) fun _ => LockFree.bind (by simp) fun _ => ?_
  refine LockFree.bind (by simp) fun _ => LockFree.bind (by simp) fun _ => ?_
  refine LockFree.bind (by simp) fun turn => ?_
  split <;> simp

theorem lockFree_escapeChecked {α : Type} (action : FhAction) (fail : ℤ → α) {success : Prog α}
    (reads : success.LockFree) : (escapeChecked action fail success).LockFree := by
  rw [escapeChecked]
  refine LockFree.bind (by simp) fun ret => ?_
  split
  · simp
  · refine LockFree.bind (by simp) fun hostRet => ?_
    split
    · exact LockFree.bind (by simp) fun errNo => by simp
    · exact reads

theorem lockFree_mmapPfnLoop (pfnStart fuel index : ℕ) :
    (mmapPfnLoop pfnStart fuel index).LockFree := by
  induction fuel generalizing index with
  | zero => simp [mmapPfnLoop]
  | succ fuel ih =>
      rw [mmapPfnLoop]
      refine LockFree.bind (by simp) fun pfnSize => ?_
      split
      · exact LockFree.bind (by simp) fun _ => ih (index + 1)
      · simp

theorem lockFree_transferEnd (ret : ℤ) : (transferEnd ret).LockFree := by
  rw [transferEnd]
  refine LockFree.bind (by simp) fun status => ?_
  split <;> simp

theorem lockFree_sendChunk (data : List UInt8) (transfer sizeRemain : ℕ) :
    (sendChunk data transfer sizeRemain).LockFree := by
  rw [sendChunk]
  refine LockFree.bind (by simp) fun _ => LockFree.bind (by simp) fun _ => ?_
  exact LockFree.bind (by simp) fun _ => by simp

theorem lockFree_transferRounds (data : List UInt8) (transferSize fuel sizeRemain : ℕ) :
    (transferRounds data transferSize fuel sizeRemain).LockFree := by
  induction fuel generalizing sizeRemain with
  | zero => simp [transferRounds]
  | succ fuel ih =>
      rw [transferRounds]
      refine LockFree.bind (lockFree_sendChunk _ _ _) fun ret => ?_
      split
      · exact lockFree_transferEnd ret
      · refine LockFree.bind (by simp) fun status => ?_
        split
        · exact ih _
        · exact lockFree_transferEnd ret

theorem lockFree_transferChunkToHost (fuel : ℕ) (data : List UInt8) (infoCtx : Int32) :
    (transferChunkToHost fuel data infoCtx).LockFree := by
  unfold transferChunkToHost
  split
  · simp
  · have handshake : (sendHandshake data.length infoCtx).LockFree := by
      rw [sendHandshake]
      refine LockFree.bind (by simp) fun _ => LockFree.bind (by simp) fun _ => ?_
      refine LockFree.bind (by simp) fun _ => LockFree.bind (by simp) fun _ => ?_
      simp
    refine LockFree.bind handshake fun ret => ?_
    split
    · simp
    · exact LockFree.bind (by simp) fun transferSize => lockFree_transferRounds _ _ _ _

theorem lockFree_dmaEscape (args : SgdmaArgs) (pinned : PinPages) :
    (dmaEscape args pinned).LockFree := by
  rw [dmaEscape]
  refine LockFree.bind (by simp) fun _ => LockFree.bind (by simp) fun _ => ?_
  refine LockFree.bind (by simp) fun _ => LockFree.bind (by simp) fun _ => ?_
  refine LockFree.bind (by simp) fun _ => LockFree.bind (by simp) fun _ => ?_
  refine LockFree.bind (by simp) fun _ => lockFree_escapeChecked _ _ ?_
  exact LockFree.bind (by simp) fun ret => by simp

theorem guarded_fhCharOpen (args : OpenArgs) : (fhCharOpen args).Guarded .before := by
  rw [fhCharOpen]
  split
  · exact guarded_pure _ _
  · apply guarded_acquire
    refine LockFree.guarded_bind (by simp) fun _ => LockFree.guarded_bind (by simp) fun length => ?_
    refine LockFree.guarded_bind (by simp) fun _ => LockFree.guarded_bind (by simp) fun _ => ?_
    refine LockFree.guarded_bind (lockFree_escapeChecked _ _ ?_) guarded_release
    exact LockFree.bind (by simp) fun fd => by simp

theorem guarded_fhCharClose (fd : ℤ) : (fhCharClose fd).Guarded .before := by
  apply guarded_acquire
  refine LockFree.guarded_bind (by simp) fun _ => ?_
  exact LockFree.guarded_bind (lockFree_escapeChecked _ _ (by simp)) guarded_release

theorem guarded_fhCharCtrlRead (args : CtrlArgs) : (fhCharCtrlRead args).Guarded .before := by
  apply guarded_acquire
  refine LockFree.guarded_bind (by simp) fun _ => LockFree.guarded_bind (by simp) fun _ => ?_
  refine LockFree.guarded_bind (by simp) fun _ => LockFree.guarded_bind (by simp) fun _ => ?_
  refine LockFree.guarded_bind (by simp) fun ret => ?_
  split
  · exact guarded_release _
  · refine LockFree.guarded_bind (by simp) fun _ => LockFree.guarded_bind (by simp) fun _ => ?_
    split
    · exact guarded_release _
    · refine LockFree.guarded_bind (by simp) fun count => ?_
      exact LockFree.guarded_bind (by simp) fun bufferSize => guarded_release _

/-- The second attempt to take the lock is made inside the critical section. -/
theorem guarded_fhCharCtrlWrite (args : CtrlArgs) : (fhCharCtrlWrite args).Guarded .before := by
  have cleanUp : ∀ ret, (ctrlWriteCleanUp ret).Guarded .inside := fun ret =>
    guarded_acquire_inside _
  apply guarded_acquire
  refine LockFree.guarded_bind (by simp) fun _ => LockFree.guarded_bind (by simp) fun _ => ?_
  refine LockFree.guarded_bind (by simp) fun _ => LockFree.guarded_bind (by simp) fun _ => ?_
  refine LockFree.guarded_bind (by simp) fun _ => ?_
  split
  · exact cleanUp _
  · refine LockFree.guarded_bind (by simp) fun _ => LockFree.guarded_bind (by simp) fun ret => ?_
    split
    · exact cleanUp _
    · refine LockFree.guarded_bind (by simp) fun _ => ?_
      exact LockFree.guarded_bind (by simp) fun bufferSize => cleanUp _

theorem guarded_charSgdmaReadWrite (fuel : ℕ) (args : SgdmaArgs) :
    (charSgdmaReadWrite fuel args).Guarded .before := by
  rw [charSgdmaReadWrite]
  split
  · exact guarded_pure _ _
  split
  · exact guarded_pure _ _
  apply guarded_acquire
  refine LockFree.guarded_bind (lockFree_transferChunkToHost _ _ _) fun sent => ?_
  dsimp only
  split
  · exact LockFree.guarded_bind (by simp) guarded_release
  · exact LockFree.guarded_bind (lockFree_dmaEscape _ _) guarded_release

theorem lockFree_fhCharCtrlIoctl (fd : ℤ) (cmd arg : ℕ) :
    (fhCharCtrlIoctl fd cmd arg).LockFree := by
  rw [fhCharCtrlIoctl]
  refine LockFree.bind (by simp) fun _ => LockFree.bind (by simp) fun _ => ?_
  exact LockFree.bind (by simp) fun _ => by simp

theorem lockFree_fhBridgeMmap (fuel : ℕ) (args : MmapArgs) :
    (fhBridgeMmap fuel args).LockFree := by
  rw [fhBridgeMmap]
  split
  · simp
  split
  · simp
  split
  · simp
  refine LockFree.bind (by simp) fun _ => LockFree.bind (by simp) fun _ => ?_
  refine LockFree.bind (by simp) fun _ => LockFree.bind (by simp) fun _ => ?_
  refine LockFree.bind (by simp) fun _ => LockFree.bind (by simp) fun _ => ?_
  refine LockFree.bind (by simp) fun _ => LockFree.bind (by simp) fun _ => ?_
  refine LockFree.bind (lockFree_mmapPfnLoop _ _ _) fun _ => ?_
  exact lockFree_escapeChecked _ _ (by simp)

end

def FileOp.WithoutLock : FileOp → Prop
  | ctrlIoctl _ _ _ | bridgeMmap _ => True
  | _ => False

theorem FileOp.program_guarded (fuel : ℕ) {op : FileOp} (locks : ¬op.WithoutLock) :
    (op.program fuel).Guarded .before := by
  cases op with
  | charOpen args => exact (guarded_fhCharOpen args).map Prod.fst
  | charClose fd => exact guarded_fhCharClose fd
  | ctrlRead args => exact (guarded_fhCharCtrlRead args).map Prod.fst
  | ctrlWrite args => exact guarded_fhCharCtrlWrite args
  | ctrlIoctl _ _ _ => exact absurd trivial locks
  | bridgeMmap _ => exact absurd trivial locks
  | sgdmaReadWrite args => exact guarded_charSgdmaReadWrite fuel args

theorem FileOp.program_lockFree (fuel : ℕ) {op : FileOp} (withoutLock : op.WithoutLock) :
    (op.program fuel).LockFree := by
  cases op with
  | ctrlIoctl fd cmd arg => exact lockFree_fhCharCtrlIoctl fd cmd arg
  | bridgeMmap args => exact lockFree_fhBridgeMmap fuel args
  | charOpen _ | charClose _ | ctrlRead _ | ctrlWrite _ | sgdmaReadWrite _ =>
      exact withoutLock.elim

/-! ## The requests of an operation -/

/-- The page is one that the operation escapes with: its own stores, over whatever the page held
before. A DMA escapes with the size of its chunk list, the parts of the list and its own fields. -/
def FileOp.Request : FileOp → ByteMem → Prop
  | charOpen args, page => ∃ base nonce, page = escapePage .openDevice nonce (openPage args base)
  | charClose fd, page =>
      ∃ (base : ByteMem) (nonce : ℕ),
        page = escapePage .closeDevice nonce (base.setInt ActionCommon.fd fd)
  | ctrlRead args, page =>
      ∃ base nonce, page = escapePage .read nonce (ctrlPage args args.count base)
  | ctrlWrite args, page => ∃ base nonce, page = escapePage .write nonce (ctrlPage args 4 base)
  | ctrlIoctl _ _ _, _ => False
  | bridgeMmap args, page => ∃ base nonce pfnStart, args.pfnStart = some pfnStart ∧
      page = escapePage .mmap nonce
        (pfnPage pfnStart.toNat (args.size.toNat / pageSize) (mmapPage args base))
  | sgdmaReadWrite args, page => ∃ base nonce pinned,
      fhPinPages args.kernel args.buf.toNat args.count.toNat = .ok pinned ∧
      (page = escapePage .transferEscapeData nonce
          (handshakePage base (chunkBytes pinned.pageChunks).length
            (Int32.ofInt FhAction.dma.code)) ∨
        (∃ transferSize sizeRemain, page = offeredPage nonce base
          (nextChunk (chunkBytes pinned.pageChunks) transferSize sizeRemain)) ∨
        page = escapePage .dma nonce (dmaRequestPage args pinned base))

section

variable {request : ByteMem → Prop} {page : ByteMem}

theorem requests_fhDoFaulthook {action : FhAction} {post : ℤ → ByteMem → Prop}
    (own : ∀ nonce, request (escapePage action nonce page))
    (rest : ∀ value answered, post value answered) :
    (fhDoFaulthook action).Requests request post page := by
  simp only [fhDoFaulthook, Prog.requests_bind, Prog.requests_increment, Prog.requests_storeField,
    Prog.requests_doorbell, Prog.requests_loadField]
  intro nonce
  refine ⟨own nonce, ?_⟩
  intro answered
  split <;> exact (Prog.requests_pure _ _).mpr (rest _ _)

theorem requests_escapeChecked {α : Type} {action : FhAction} {fail : ℤ → α} {success : Prog α}
    {post : α → ByteMem → Prop} (own : ∀ nonce, request (escapePage action nonce page))
    (failed : ∀ value answered, post (fail value) answered)
    (reads : ∀ answered, success.Requests request post answered) :
    (escapeChecked action fail success).Requests request post page := by
  rw [escapeChecked, Prog.requests_bind]
  apply requests_fhDoFaulthook own
  intro ret answered
  split
  · rw [Prog.requests_pure]
    exact failed _ _
  · rw [Prog.requests_bind, Prog.requests_loadInt]
    split
    · rw [Prog.requests_bind, Prog.requests_loadInt, Prog.requests_pure]
      exact failed _ _
    · exact reads answered

theorem requests_transferEnd {post : ℤ → ByteMem → Prop} (ret : ℤ)
    (rest : ∀ value page, post value page) : (transferEnd ret).Requests request post page := by
  rw [transferEnd, Prog.requests_bind, Prog.requests_loadInt]
  split <;> exact (Prog.requests_pure _ _).mpr (rest _ _)

theorem requests_transferRounds {data : List UInt8} {transferSize fuel sizeRemain : ℕ}
    {post : ℤ → ByteMem → Prop} (remains : sizeRemain ≤ data.length)
    (own : ∀ base nonce sizeRemain,
      request (offeredPage nonce base (nextChunk data transferSize sizeRemain)))
    (rest : ∀ value page, post value page) :
    (transferRounds data transferSize fuel sizeRemain).Requests request post page := by
  induction fuel generalizing sizeRemain page with
  | zero => simp [transferRounds]
  | succ fuel ih =>
      rw [transferRounds, Prog.requests_bind]
      simp only [sendChunk, Prog.requests_bind, Prog.requests_storeBytes, Prog.requests_storeField,
        Prog.requests_storeInt]
      apply requests_fhDoFaulthook
      · intro nonce
        have chunk := own page nonce sizeRemain
        rw [offeredPage, chunkPage, length_nextChunk transferSize remains] at chunk
        exact chunk
      · intro ret answered
        split
        · exact requests_transferEnd ret rest
        · rw [Prog.requests_bind, Prog.requests_loadInt]
          split
          · exact ih (by omega)
          · exact requests_transferEnd ret rest

theorem requests_transferChunkToHost {fuel : ℕ} {data : List UInt8} {infoCtx : Int32}
    {post : ℤ → ByteMem → Prop}
    (handshake : ∀ base nonce, request
      (escapePage .transferEscapeData nonce (handshakePage base data.length infoCtx)))
    (chunk : ∀ base nonce transferSize sizeRemain,
      request (offeredPage nonce base (nextChunk data transferSize sizeRemain)))
    (rest : ∀ value page, post value page) :
    (transferChunkToHost fuel data infoCtx).Requests request post page := by
  unfold transferChunkToHost
  split
  · rw [Prog.requests_pure]
    exact rest _ _
  · rw [Prog.requests_bind]
    simp only [sendHandshake, Prog.requests_bind, Prog.requests_storeField, Prog.requests_storeInt]
    apply requests_fhDoFaulthook
    · exact handshake page
    · intro ret answered
      split
      · rw [Prog.requests_pure]
        exact rest _ _
      · rw [Prog.requests_bind, Prog.requests_loadField]
        exact requests_transferRounds le_rfl (fun base nonce => chunk base nonce _) rest

theorem requests_mmapPfnLoop {pfnStart fuel index count : ℕ} {base : ByteMem}
    {post : Unit → ByteMem → Prop} (pfnSize : base.get ActionMmapDevice.pfnSize = count)
    (remains : index ≤ count) (stored : post () (pfnPage pfnStart count base)) :
    (mmapPfnLoop pfnStart fuel index).Requests request post (pfnPage pfnStart index base) := by
  induction fuel generalizing index with
  | zero => simp [mmapPfnLoop]
  | succ fuel ih =>
      rw [mmapPfnLoop, Prog.requests_bind, Prog.requests_loadField,
        get_pfnPage _ _ _ (by decide), pfnSize]
      split
      · rw [Prog.requests_bind, Prog.requests_storeField]
        exact ih (by omega)
      · rw [Prog.requests_pure]
        have last : index = count := by omega
        rw [last]
        exact stored

end

section

variable {page : ByteMem}

theorem requests_fhCharOpen (args : OpenArgs) (page : ByteMem) :
    (fhCharOpen args).Requests (FileOp.charOpen args).Request (fun _ _ => True) page := by
  rw [fhCharOpen]
  split
  · rw [Prog.requests_pure]
    trivial
  · simp only [Prog.requests_bind, Prog.requests_acquire, Prog.requests_storeBytes,
      Prog.requests_strlen, Prog.requests_storeField, strlen_devPrefix]
    intro base
    apply requests_escapeChecked
    · exact fun nonce => ⟨base, nonce, rfl⟩
    · simp
    · simp [Prog.requests_bind]

theorem requests_fhCharClose (fd : ℤ) (page : ByteMem) :
    (fhCharClose fd).Requests (FileOp.charClose fd).Request (fun _ _ => True) page := by
  simp only [fhCharClose, Prog.requests_bind, Prog.requests_acquire, Prog.requests_storeInt]
  intro base
  apply requests_escapeChecked
  · exact fun nonce => ⟨base, nonce, rfl⟩
  · simp
  · simp

theorem requests_fhCharCtrlRead (args : CtrlArgs) (page : ByteMem) :
    (fhCharCtrlRead args).Requests (FileOp.ctrlRead args).Request (fun _ _ => True) page := by
  rw [fhCharCtrlRead, Prog.requests_bind, Prog.requests_acquire]
  intro base
  rw [Prog.requests_bind, Prog.requests_storeInt, Prog.requests_bind, Prog.requests_storeInt,
    Prog.requests_bind, Prog.requests_storeField, Prog.requests_bind]
  apply requests_fhDoFaulthook
  · exact fun nonce => ⟨base, nonce, rfl⟩
  · intro _ answered
    rw [Prog.requests_bind, Prog.requests_loadInt]
    split
    · simp [Prog.requests_bind]
    · rw [Prog.requests_bind, Prog.requests_loadField, Prog.requests_bind, Prog.requests_loadInt]
      split
      · simp [Prog.requests_bind]
      · simp [Prog.requests_bind]

theorem requests_fhCharCtrlWrite (args : CtrlArgs) (page : ByteMem) :
    (fhCharCtrlWrite args).Requests (FileOp.ctrlWrite args).Request (fun _ _ => True) page := by
  have cleanUp : ∀ ret page,
      (ctrlWriteCleanUp ret).Requests (FileOp.ctrlWrite args).Request (fun _ _ => True) page := by
    simp [ctrlWriteCleanUp, Prog.requests_bind]
  simp only [fhCharCtrlWrite, Prog.requests_bind, Prog.requests_acquire, Prog.requests_storeInt,
    Prog.requests_storeField, Prog.requests_loadField]
  intro base
  split
  · exact cleanUp _ _
  · rw [Prog.requests_bind]
    apply requests_fhDoFaulthook
    · exact fun nonce => ⟨base, nonce, rfl⟩
    · intro _ answered
      rw [Prog.requests_bind, Prog.requests_loadInt]
      split
      · exact cleanUp _ _
      · simp only [Prog.requests_bind, Prog.requests_loadField, Prog.requests_loadInt]
        exact cleanUp _ _

theorem requests_fhBridgeMmap (fuel : ℕ) (args : MmapArgs) (page : ByteMem) :
    (fhBridgeMmap fuel args).Requests (FileOp.bridgeMmap args).Request (fun _ _ => True) page := by
  rw [fhBridgeMmap]
  split
  · simp
  split
  · simp
  split
  · simp
  · rename_i pfnStart pfnStart_eq
    simp only [Prog.requests_bind, Prog.requests_storeBytes, Prog.requests_storeInt,
      Prog.requests_storeField]
    have pfnSize : (mmapPage args page).get ActionMmapDevice.pfnSize =
        args.size.toNat / pageSize := by
      rw [mmapPage, ByteMem.get_set_same]
      apply Nat.mod_eq_of_lt
      have bound : args.size < 2 ^ 64 := by
        have upper := Int.bmod_lt (x := (args.vmEnd.toNat : ℤ) - args.vmStart.toNat)
          (m := 2 ^ 64) (by decide)
        rw [MmapArgs.size]
        omega
      have width : 256 ^ ActionMmapDevice.pfnSize.width = 2 ^ 64 := by decide
      rw [width]
      have divided : args.size.toNat / pageSize ≤ args.size.toNat := Nat.div_le_self _ _
      omega
    apply requests_mmapPfnLoop pfnSize (Nat.zero_le _)
    apply requests_escapeChecked
    · exact fun nonce => ⟨page, nonce, pfnStart, pfnStart_eq, rfl⟩
    · simp
    · simp

theorem requests_charSgdmaReadWrite (fuel : ℕ) (args : SgdmaArgs) (page : ByteMem) :
    (charSgdmaReadWrite fuel args).Requests (FileOp.sgdmaReadWrite args).Request
      (fun _ _ => True) page := by
  rw [charSgdmaReadWrite]
  split
  · simp
  rename_i pinned pinning
  split
  · simp
  rw [sgdmaLocked, Prog.requests_bind, Prog.requests_acquire]
  intro base
  rw [Prog.requests_bind]
  apply requests_transferChunkToHost
  · exact fun base nonce => ⟨base, nonce, pinned, pinning, Or.inl rfl⟩
  · exact fun base nonce transferSize sizeRemain =>
      ⟨base, nonce, pinned, pinning, Or.inr (Or.inl ⟨transferSize, sizeRemain, rfl⟩)⟩
  · intro sent base
    dsimp only
    split
    · simp [Prog.requests_bind]
    · simp only [dmaEscape, Prog.requests_bind, Prog.requests_storeInt, Prog.requests_storeField]
      apply requests_escapeChecked
      · exact fun nonce => ⟨base, nonce, pinned, pinning, Or.inr (Or.inr rfl)⟩
      · simp
      · simp [Prog.requests_bind]

/-- Whatever the page holds when the operation starts and whatever the host answers, the operation
escapes with its own requests only. -/
theorem FileOp.program_requests (fuel : ℕ) (op : FileOp) (page : ByteMem) :
    (op.program fuel).Requests op.Request (fun _ _ => True) page := by
  cases op with
  | charOpen args =>
      rw [FileOp.program, Prog.map_def, Prog.requests_bind]
      exact (requests_fhCharOpen args page).imp fun _ _ _ => by simp
  | charClose fd => exact requests_fhCharClose fd page
  | ctrlRead args =>
      rw [FileOp.program, Prog.map_def, Prog.requests_bind]
      exact (requests_fhCharCtrlRead args page).imp fun _ _ _ => by simp
  | ctrlWrite args => exact requests_fhCharCtrlWrite args page
  | ctrlIoctl fd cmd arg => simp [FileOp.program, fhCharCtrlIoctl, Prog.requests_bind]
  | bridgeMmap args => exact requests_fhBridgeMmap fuel args page
  | sgdmaReadWrite args => exact requests_charSgdmaReadWrite fuel args page

end

def FileOp.descriptor : FileOp → Option ℤ
  | charOpen _ => none
  | charClose fd | ctrlIoctl fd _ _ => some fd
  | ctrlRead args | ctrlWrite args => some args.fd
  | bridgeMmap args => some args.fd
  | sgdmaReadWrite args => some args.fd

/-- Apart from the parts of a chunk list, a request carries the descriptor of its operation. -/
theorem FileOp.Request.getInt_fd {op : FileOp} {page : ByteMem} {fd : ℤ} (own : op.Request page)
    (descriptor : op.descriptor = some fd)
    (whole : page.get FaultData.action ≠ FhAction.transferEscapeData.code) :
    page.getInt ActionCommon.fd = Int.bmod fd (2 ^ 32) := by
  have stored : ∀ (base : ByteMem) (value : ℤ),
      (base.setInt ActionCommon.fd value).getInt ActionCommon.fd = Int.bmod value (2 ^ 32) :=
    fun base value => ByteMem.getInt_setInt_same base ActionCommon.fd value
  cases op with
  | charOpen args => cases descriptor
  | charClose fd =>
      cases descriptor
      rcases own with ⟨base, nonce, rfl⟩
      rw [getInt_escapePage (by decide), stored]
  | ctrlRead args =>
      cases descriptor
      rcases own with ⟨base, nonce, rfl⟩
      rw [getInt_escapePage (by decide), ctrlPage, ByteMem.getInt_set_of_disjoint (by decide),
        ByteMem.getInt_setInt_of_disjoint (by decide), stored]
  | ctrlWrite args =>
      cases descriptor
      rcases own with ⟨base, nonce, rfl⟩
      rw [getInt_escapePage (by decide), ctrlPage, ByteMem.getInt_set_of_disjoint (by decide),
        ByteMem.getInt_setInt_of_disjoint (by decide), stored]
  | ctrlIoctl fd cmd arg => exact own.elim
  | bridgeMmap args =>
      cases descriptor
      rcases own with ⟨base, nonce, pfnStart, -, rfl⟩
      rw [getInt_escapePage (by decide), ByteMem.getInt, get_pfnPage _ _ _ (by decide),
        ← ByteMem.getInt, mmapPage]
      rw [ByteMem.getInt_set_of_disjoint (by decide), ByteMem.getInt_set_of_disjoint (by decide),
        ByteMem.getInt_set_of_disjoint (by decide), ByteMem.getInt_set_of_disjoint (by decide),
        ByteMem.getInt_set_of_disjoint (by decide), ByteMem.getInt_set_of_disjoint (by decide),
        stored]
  | sgdmaReadWrite args =>
      cases descriptor
      rcases own with ⟨base, nonce, pinned, -, rfl | ⟨transferSize, sizeRemain, rfl⟩ | rfl⟩
      · rw [escapePage_action] at whole
        exact absurd rfl whole
      · rw [offeredPage, escapePage_action] at whole
        exact absurd rfl whole
      · rw [getInt_escapePage (by decide), dmaRequestPage]
        rw [ByteMem.getInt_set_of_disjoint (by decide), ByteMem.getInt_set_of_disjoint (by decide),
          ByteMem.getInt_setInt_of_disjoint (by decide),
          ByteMem.getInt_set_of_disjoint (by decide),
          ByteMem.getInt_setInt_of_disjoint (by decide), stored]

/-! ## All operations together -/

def startPool {σ : Type} (fuel : ℕ) (ops : ℕ → FileOp) (page : ByteMem) (counter : ℕ) (peer : σ) :
    Pool ℤ σ where
  page := page
  counter := counter
  peer := peer
  holder := none
  threads thread := (ops thread).program fuel
  left _ := none

section

variable {σ : Type} (fuel : ℕ) (ops : ℕ → FileOp) (page : ByteMem) (counter : ℕ) (peer : σ)

theorem startPool_sound :
    (startPool fuel ops page counter peer).Sound fun thread => (ops thread).WithoutLock := by
  intro thread
  refine ⟨?_, ?_, ?_⟩
  · intro locks
    exact ⟨.before, FileOp.program_guarded fuel locks, by simp [startPool], fun _ => rfl⟩
  · intro withoutLock
    exact ⟨FileOp.program_lockFree fuel withoutLock, by simp [startPool]⟩
  · intro midway
    exact absurd rfl midway.1

theorem startPool_makesRequests :
    (startPool fuel ops page counter peer).MakesRequests fun thread => (ops thread).Request := by
  intro thread page _
  exact FileOp.program_requests fuel (ops thread) page

/--
As long as the accesses of `fh_bridge_mmap` and `fh_char_ctrl_ioctl` are not mixed
with those of another operation, every access of an operation finds the page and
the host as its own last access has left them, and the host is served with
requests of the operation that escapes only. This holds for any number of threads,
any schedule and any host.
-/
theorem FileOp.isolated_of_apart (answer : σ → ByteMem → σ × ByteMem) {schedule : List ℕ}
    (apart : (startPool fuel ops page counter peer).ApartThroughout
      (fun thread => (ops thread).WithoutLock) answer schedule) :
    (startPool fuel ops page counter peer).Isolated answer schedule ∧
      (startPool fuel ops page counter peer).Serves answer (fun thread => (ops thread).Request)
        schedule := by
  have isolated := (startPool_sound fuel ops page counter peer).isolated apart
  exact ⟨isolated, isolated.serves (startPool_makesRequests fuel ops page counter peer)⟩

end

def closeAndIoctl : ℕ → FileOp
  | 0 => .charClose 3
  | _ => .ctrlIoctl 9 0 0

/-- Two threads close their files, the others make an ioctl call. -/
def closesAndIoctl : ℕ → FileOp
  | 0 => .charClose 3
  | 1 => .charClose 5
  | _ => .ctrlIoctl 9 0 0

/-- The ioctl call is made when the first thread has taken the lock and not yet stored anything;
from then on, the two closing threads take turns. -/
def closesInTurns : List ℕ :=
  0 :: (List.replicate 3 2 ++ (List.replicate 24 [0, 1]).flatten)

theorem FileOp.isolated_of_apart_closing :
    (startPool 1 closesAndIoctl ByteMem.zero 0 Machine.cleared.peer).Isolated Host.onEscape
        closesInTurns ∧
      (startPool 1 closesAndIoctl ByteMem.zero 0 Machine.cleared.peer).Serves Host.onEscape
        (fun thread => (closesAndIoctl thread).Request) closesInTurns := by
  refine FileOp.isolated_of_apart 1 closesAndIoctl ByteMem.zero 0 Machine.cleared.peer
    Host.onEscape ⟨fun _ _ _ _ midway => midway.1 rfl, Pool.apartThroughout_append.mpr ⟨?_, ?_⟩⟩
  · exact Pool.apartThroughout_replicate 3 fun _ _ => rfl
  · apply Pool.apartThroughout_of_locking
    · intro thread inTurns
      rcases List.mem_flatten.mp inTurns with ⟨turn, turn_mem, thread_mem⟩
      have closing : thread = 0 ∨ thread = 1 := by
        rw [List.eq_of_mem_replicate turn_mem] at thread_mem
        simpa using thread_mem
      rcases closing with rfl | rfl <;> exact id
    · intro other _ midway
      by_cases calling : other = 2
      · -- the ioctl call has returned
        subst calling
        exact midway.2 trivial
      · exact midway.1 (Pool.run_left_of_notMem (by simp [calling]))

/-- The ioctl call stores its descriptor between the store and the escape of the close call. -/
theorem charClose_served_with_other_fd :
    ¬∀ (fuel : ℕ) (ops : ℕ → FileOp) (page : ByteMem) (counter : ℕ) (host : Host)
      (schedule : List ℕ),
      (startPool fuel ops page counter host).Isolated Host.onEscape schedule ∧
        (startPool fuel ops page counter host).Serves Host.onEscape
          (fun thread => (ops thread).Request) schedule := by
  intro claim
  have served := (claim 1 closeAndIoctl ByteMem.zero 0 Machine.cleared.peer
    [0, 0, 1, 0, 0, 0, 0, 0]).2
  have ring := served.2.2.2.2.2.2.2.1 _ rfl
  have fd := ring.getInt_fd rfl (by decide +kernel)
  exact absurd fd (by decide +kernel)

end Acai
