import Acai.Driver.RemoteDma
import Acai.Driver.RemoteTransfer
import Acai.Lib.Trace
import Acai.Manager.OwnHandler

/-!
# Aperture transfers

An aperture ioctl names a buffer, an address on the device and the size of a window
that is used again and again for the bytes of the buffer. The plain driver hands all
of this to `xdma_xfer_aperture`. In the guest, the request goes through the stub, the
escape page and the manager to `char_sgdma_read_write_remote` of the host driver,
which knows no window and calls `xdma_xfer_submit`.

The stub has the length of the buffer in `cb.len`, and hands on `cb.count`, which is
still zero. What reaches the host is therefore a request for no bytes at all, or no
request if the buffer starts at a page boundary, and no aperture transfer of the plain
driver is done for a guest. The two drivers agree on some of the requests that both of
them refuse: the plain driver leaves the request as it is then, and the stub stores its
error in it (`apertureAgrees_iff`).

The copies of the request between user space and the drivers, and the blocks for
them, are taken to succeed. What the engine makes of a transfer is a parameter.
-/

namespace Acai

/-! ## The request and the transfer -/

structure XdmaApertureIoctl where
  epAddr : UInt64
  aperture : UInt32
  buffer : UInt64
  len : UInt64
  error : Int32
  done : UInt64
  deriving DecidableEq

/-- A transfer as it is handed to the engine. -/
structure EngineTransfer where
  write : Bool
  epAddr : ℕ
  /-- The window of `xdma_xfer_aperture`; `xdma_xfer_submit` has none. -/
  aperture : Option ℕ
  sgl : List SgEntry
  deriving DecidableEq

namespace EngineTransfer

/-- The parts of the buffer, by their offsets in their pages and their lengths. -/
def pieces (transfer : EngineTransfer) : List (UInt32 × UInt32) :=
  transfer.sgl.map fun entry => (entry.offset, entry.length)

/-- The number of bytes. -/
def nbytes (transfer : EngineTransfer) : ℕ :=
  (transfer.sgl.map fun entry => entry.length.toNat).sum

/-- The same bytes of a buffer go to or come from the same window of the device. The pages
themselves are those of different machines. -/
structure Same (left right : EngineTransfer) : Prop where
  write : left.write = right.write
  epAddr : left.epAddr = right.epAddr
  aperture : left.aperture = right.aperture
  pieces : left.pieces = right.pieces

theorem Same.nbytes {left right : EngineTransfer} (same : left.Same right) :
    left.nbytes = right.nbytes := by
  have lengths := congrArg (List.map fun piece : UInt32 × UInt32 => piece.2.toNat) same.pieces
  simp only [EngineTransfer.pieces, List.map_map] at lengths
  exact congrArg List.sum lengths

end EngineTransfer

/-! ## The plain driver -/

/-- The engine of the plain driver, what the kernel does for it, and the result of
`xdma_xfer_aperture`. -/
structure ApertureDriver where
  engine : XdmaEngine
  kernel : PlainKernel
  xferAperture : ℤ

structure ApertureOutcome where
  ret : ℤ
  io : XdmaApertureIoctl
  transfer : Option EngineTransfer

/-- `ioctl_do_aperture_dma` of the plain driver. A request that it refuses is not copied back. -/
def ApertureDriver.ioctlDoApertureDma (driver : ApertureDriver) (io : XdmaApertureIoctl)
    (write : Bool) : ApertureOutcome :=
  if driver.engine.dir ≠ (if write then .toDevice else .fromDevice) then
    ⟨-Errno.EINVAL.code, io, none⟩
  else
    let rv := checkTransferAlign (some driver.engine) io.buffer.toNat io.len.toNat
      io.epAddr.toNat true
    if rv ≠ 0 then ⟨rv, io, none⟩
    else
      match charSgdmaMapUserBufToSgl driver.kernel io.buffer.toNat io.len.toNat with
      | .error rv => ⟨rv, io, none⟩
      | .ok sgl =>
          let res := driver.xferAperture
          let done :=
            if res < 0 then { io with error := Int32.ofInt res }
            else { io with error := 0, done := UInt64.ofInt res }
          ⟨done.error.toInt, done, some
            { write := write
              epAddr := io.epAddr.toNat
              aperture := some io.aperture.toNat
              sgl := sgl }⟩

theorem nbytes_charSgdmaMapUserBufToSgl {kernel : PlainKernel} {buf len : ℕ}
    {sgl : List SgEntry} (mapped : charSgdmaMapUserBufToSgl kernel buf len = .ok sgl) :
    (sgl.map fun entry => entry.length.toNat).sum = len := by
  simp only [charSgdmaMapUserBufToSgl] at mapped
  split at mapped
  · cases mapped
  split at mapped
  · cases mapped
  split at mapped
  · cases mapped
  split at mapped
  · cases mapped
  rename_i pages _
  split at mapped
  · cases mapped
  split at mapped
  · cases mapped
  split at mapped
  · cases mapped
  rename_i complete
  cases mapped
  have total := cutBuffer_sum pages buf len
  rw [not_not.mp complete, Nat.add_zero] at total
  conv_rhs => rw [← total]
  rw [List.map_map]
  congr 1
  apply List.map_congr_left
  intro piece piece_mem
  have inPage := cutBuffer_inPage piece_mem
  simp only [pageSize] at inPage
  simp only [Function.comp_apply, Piece.toEntry, sgSetPage]
  exact UInt32.toNat_ofNat_of_lt' (by change piece.nbytes < 2 ^ 32; omega)

/-- The error with which a request is refused before the plain driver hands it to the engine: the
direction is not that of the engine, the transfer is not aligned, or the pages of the buffer cannot
be pinned and mapped. -/
def ApertureDriver.refusal (driver : ApertureDriver) (io : XdmaApertureIoctl) (write : Bool) :
    Option ℤ :=
  if driver.engine.dir ≠ (if write then .toDevice else .fromDevice) then some (-Errno.EINVAL.code)
  else if checkTransferAlign (some driver.engine) io.buffer.toNat io.len.toNat
      io.epAddr.toNat true ≠ 0 then
    some (checkTransferAlign (some driver.engine) io.buffer.toNat io.len.toNat
      io.epAddr.toNat true)
  else
    match charSgdmaMapUserBufToSgl driver.kernel io.buffer.toNat io.len.toNat with
    | .error rv => some rv
    | .ok _ => none

/-- The plain driver leaves alone what it refuses and performs what it accepts, and a transfer
covers the whole buffer. -/
theorem ApertureDriver.transfer_cases (driver : ApertureDriver) (io : XdmaApertureIoctl)
    (write : Bool) :
    (∃ code, driver.refusal io write = some code ∧
        driver.ioctlDoApertureDma io write = ⟨code, io, none⟩) ∨
      (driver.refusal io write = none ∧ ∃ transfer,
        (driver.ioctlDoApertureDma io write).transfer = some transfer ∧
          transfer.nbytes = io.len.toNat) := by
  rw [ApertureDriver.ioctlDoApertureDma, ApertureDriver.refusal]
  by_cases direction : driver.engine.dir = (if write then .toDevice else .fromDevice)
  · rw [if_neg (not_not.mpr direction), if_neg (not_not.mpr direction)]
    by_cases aligned : checkTransferAlign (some driver.engine) io.buffer.toNat io.len.toNat
        io.epAddr.toNat true = 0
    · rw [if_neg (not_not.mpr aligned), if_neg (not_not.mpr aligned)]
      rcases mapped : charSgdmaMapUserBufToSgl driver.kernel io.buffer.toNat io.len.toNat
        with rv | sgl
      · exact Or.inl ⟨rv, rfl, rfl⟩
      · exact Or.inr ⟨rfl, _, rfl, nbytes_charSgdmaMapUserBufToSgl mapped⟩
    · rw [if_pos aligned, if_pos aligned]
      exact Or.inl ⟨_, rfl, rfl⟩
  · rw [if_pos direction, if_pos direction]
    exact Or.inl ⟨_, rfl, rfl⟩

/-! ## The stub and the host driver -/

/-- The fields of `struct xdma_io_cb` that the stub fills in or hands on. -/
structure StubIoCb where
  buf : UInt64
  len : UInt64
  count : UInt32
  epAddr : UInt64
  write : Bool

def StubIoCb.cleared : StubIoCb := ⟨0, 0, 0, 0, false⟩

/-- An open device file in the guest, and what the guest's kernel does for a transfer. -/
structure StubFile where
  fd : ℤ
  kernel : PinKernel
  escapeSize : ℕ

/-- The call of `char_sgdma_read_write` for a callback structure. -/
def StubFile.apertureArgs (file : StubFile) (cb : StubIoCb) : SgdmaArgs where
  fd := file.fd
  buf := cb.buf
  count := cb.count.toUInt64
  phyAddr := cb.epAddr.toInt64.toInt
  doWrite := cb.write
  doAperture := true
  kernel := file.kernel
  escapeSize := file.escapeSize

/-- `ioctl_do_aperture_dma` of the stub: its result, and the request that is copied back. -/
def StubFile.ioctlDoApertureDma (file : StubFile) (fuel : ℕ) (io : XdmaApertureIoctl)
    (write : Bool) : Prog (ℤ × XdmaApertureIoctl) := do
  let cb : StubIoCb :=
    { StubIoCb.cleared with
      buf := io.buffer
      len := io.len
      epAddr := io.epAddr
      write := write }
  let rv ← charSgdmaReadWrite fuel (file.apertureArgs cb)
  let reported := { io with error := Int32.ofInt rv }
  let done := if 0 < rv then { reported with done := UInt64.ofInt rv } else reported
  pure (done.error.toInt, done)

/-- The device file of the manager, and what kernel and engine of the host do for a transfer. -/
structure HostDriver where
  xcdev : Option XdmaCdev
  kernel : RemoteKernel
  xferSubmit : ℤ

/-- The call of `char_sgdma_read_write_remote` for a request of the manager. -/
def HostDriver.remoteArgs (driver : HostDriver) (dma : FhHostIoctlDma) : RemoteArgs where
  xcdev := driver.xcdev
  dma := dma
  count := UInt64.ofNat dma.len
  remoteAddr := UInt64.ofNat dma.phyAddr
  write := dma.doWrite ≠ 0
  kernel := driver.kernel
  xferSubmit := driver.xferSubmit

/-- The transfer that a call of the manager makes the host driver hand to the engine. -/
def HostDriver.transfer (driver : HostDriver) : HostCall → Option EngineTransfer
  | .iocDma _ dma _ =>
      (charSgdmaReadWriteRemote (driver.remoteArgs dma)).submitted.map fun cb =>
        { write := (driver.remoteArgs dma).write
          epAddr := (driver.remoteArgs dma).remoteAddr.toNat
          aperture := none
          sgl := cb.sgl.getD [] }
  | _ => none

/-! ## What a request to the host sets off -/

/-- The calls of the manager since it had made `base` are all of one kind. -/
def MadeSince (kind : HostCall → Prop) (base : List HostCall) (host : Host) : Prop :=
  ∃ made, host.manager.calls = base ++ made ∧ ∀ call ∈ made, kind call

theorem MadeSince.refl (kind : HostCall → Prop) (host : Host) :
    MadeSince kind host.manager.calls host :=
  ⟨[], (List.append_nil _).symm, by simp⟩

section Escapes

variable {kind : HostCall → Prop} {base : List HostCall}

theorem MadeSince.of_calls {host host' : Host} (since : MadeSince kind base host)
    {own : List HostCall} (calls : host'.manager.calls = host.manager.calls ++ own)
    (kinds : ∀ call ∈ own, kind call) : MadeSince kind base host' := by
  rcases since with ⟨made, made_eq, all⟩
  refine ⟨made ++ own, by rw [calls, made_eq, List.append_assoc], fun call member => ?_⟩
  rcases List.mem_append.mp member with before | now
  · exact all call before
  · exact kinds call now

/-- An escape makes the calls of its own action, or none. -/
theorem MadeSince.onEscape {host : Host} (since : MadeSince kind base host) {action : FhAction}
    (notMmap : action ≠ .mmap) (notUnmap : action ≠ .unmap) (nonce : ℕ) (page : ByteMem)
    (kinds : ∀ call ∈ ownCalls host.outcome host.manager (escapePage action nonce page)
      (some action), kind call) :
    MadeSince kind base (host.onEscape (escapePage action nonce page)).1 := by
  have serves := @servesOwn_onFault host.outcome host.manager _
    (escapePage_turn action nonce page)
    (by
      rw [escapePage_action, FhAction.ofCode_code]
      exact fun same => notMmap (Option.some.inj same))
    (by
      rw [escapePage_action, FhAction.ofCode_code]
      exact fun same => notUnmap (Option.some.inj same))
  rw [escapePage_action, FhAction.ofCode_code] at serves
  simp only [Host.onEscape]
  split
  · split
    · rename_i ret manager page' handled
      refine since.of_calls (serves.calls manager ?_) kinds
      exact congrArg (Option.map managerOf) handled
    · exact since
  · exact since

theorem ensures_fhDoFaulthook {action : FhAction} {machine : Machine Host}
    (notMmap : action ≠ .mmap) (notUnmap : action ≠ .unmap)
    (since : MadeSince kind base machine.peer)
    (kinds : ∀ call ∈ ownCalls machine.peer.outcome machine.peer.manager
      (escapePage action (machine.counter + 1) machine.page) (some action), kind call) :
    (fhDoFaulthook action).Ensures Host.onEscape (fun _ => True) machine fun _ final =>
      MadeSince kind base final.peer := by
  refine ⟨fun _ _ => trivial, fun value final ran => ?_⟩
  rw [run_fhDoFaulthook] at ran
  obtain ⟨-, rfl⟩ := Prod.mk.inj ran
  exact since.onEscape notMmap notUnmap _ _ kinds

theorem keepsPeer_escapeTransfer :
    (fhDoFaulthook .transferEscapeData).KeepsPeer Host.onEscape (MadeSince kind base) :=
  fun _ since => ensures_fhDoFaulthook (by decide) (by decide) since (by simp [ownCalls])

theorem keepsPeer_transferEnd (ret : ℤ) :
    (transferEnd ret).KeepsPeer Host.onEscape (MadeSince kind base) := by
  refine (Prog.keepsPeer_loadInt _).bind fun status => ?_
  split <;> exact Prog.keepsPeer_pure _

theorem keepsPeer_sendChunk (data : List UInt8) (transfer sizeRemain : ℕ) :
    (sendChunk data transfer sizeRemain).KeepsPeer Host.onEscape (MadeSince kind base) :=
  (Prog.keepsPeer_storeBytes _ _).bind fun _ =>
    (Prog.keepsPeer_storeField _ _).bind fun _ =>
      (Prog.keepsPeer_storeInt _ _).bind fun _ => keepsPeer_escapeTransfer

theorem keepsPeer_transferRounds (data : List UInt8) (transferSize fuel sizeRemain : ℕ) :
    (transferRounds data transferSize fuel sizeRemain).KeepsPeer Host.onEscape
      (MadeSince kind base) := by
  induction fuel generalizing sizeRemain with
  | zero => exact Prog.keepsPeer_diverge
  | succ fuel ih =>
      refine (keepsPeer_sendChunk _ _ _).bind fun ret => ?_
      split
      · exact keepsPeer_transferEnd _
      · refine (Prog.keepsPeer_loadInt _).bind fun status => ?_
        split
        · exact ih _
        · exact keepsPeer_transferEnd _

theorem keepsPeer_transferChunkToHost (fuel : ℕ) (data : List UInt8) (infoCtx : Int32) :
    (transferChunkToHost fuel data infoCtx).KeepsPeer Host.onEscape (MadeSince kind base) := by
  rw [transferChunkToHost]
  split
  · exact Prog.keepsPeer_pure _
  · have handshake : (sendHandshake data.length infoCtx).KeepsPeer Host.onEscape
        (MadeSince kind base) :=
      (Prog.keepsPeer_storeInt _ _).bind fun _ =>
        (Prog.keepsPeer_storeField _ _).bind fun _ =>
          (Prog.keepsPeer_storeField _ _).bind fun _ =>
            (Prog.keepsPeer_storeInt _ _).bind fun _ => keepsPeer_escapeTransfer
    refine handshake.bind fun ret => ?_
    split
    · exact Prog.keepsPeer_pure _
    · exact (Prog.keepsPeer_loadField _).bind fun size => keepsPeer_transferRounds _ _ _ _

/-- The checks of a reply add nothing to what the escape has set off. -/
theorem ensures_escapeChecked {α : Type} {action : FhAction} {fail : ℤ → α} {success : Prog α}
    {inv : Host → Prop} {machine : Machine Host}
    (escapes : (fhDoFaulthook action).Ensures Host.onEscape (fun _ => True) machine
      fun _ final => inv final.peer)
    (reads : success.KeepsPeer Host.onEscape inv) :
    (escapeChecked action fail success).Ensures Host.onEscape (fun _ => True) machine
      fun _ final => inv final.peer := by
  rw [escapeChecked, Prog.ensures_bind]
  refine escapes.imp fun ret rung holds => ?_
  split
  · exact Prog.keepsPeer_pure _ rung holds
  · refine (Prog.keepsPeer_loadInt _).bind (fun hostRet => ?_) rung holds
    split
    · exact (Prog.keepsPeer_loadInt _).bind fun errNo => Prog.keepsPeer_pure _
    · exact reads

end Escapes

/-! ## A request for no bytes -/

/-- A DMA of one record and no bytes. -/
def EmptyDma : HostCall → Prop
  | .iocDma _ dma _ => dma.len = 0 ∧ dma.chunksNr = 1
  | _ => False

/-- A single record that leaves nothing of no bytes has none itself. -/
theorem remoteEntries_empty (pages : List Page) {chunks : List PageChunk}
    (single : chunks.length ≤ 1) (used : remainingLen 0 chunks = 0) :
    ((remoteEntries pages chunks).map fun entry => entry.length.toNat).sum = 0 := by
  match chunks, single with
  | [], _ => rw [remoteEntries, List.zipWith_nil_right]; rfl
  | [chunk], _ =>
      have nbytes : u32 chunk.nbytes = 0 := by
        simp only [remainingLen, List.foldl_cons, List.foldl_nil, u64, u32] at used ⊢
        omega
      cases pages with
      | nil => rfl
      | cons page pages =>
          rw [remoteEntries, List.zipWith_cons_cons, List.zipWith_nil_right, nbytes]
          rfl

theorem mapRemotePages_empty {kernel : RemoteKernel} {dma : FhHostIoctlDma}
    (chunksNr : dma.chunksNr = 1) (maps : ¬(mapRemotePages kernel 0 dma).1 < 0) :
    (((mapRemotePages kernel 0 dma).2.sgl.getD []).map fun entry => entry.length.toNat).sum =
      0 := by
  have single : (dma.chunks.take (u32 dma.chunksNr)).length ≤ 1 := by
    rw [chunksNr]
    exact List.length_take_le _ _
  revert maps
  fun_cases mapRemotePages kernel 0 dma with
  | case7 pagesNr _ _ _ chunks pages _ _ used =>
      exact fun _ => remoteEntries_empty pages single (not_not.mp used)
  | case6 => exact fun maps => absurd (show -Errno.EINVAL.code < 0 by decide) maps
  | case5 => exact fun maps => absurd (show -Errno.EFAULT.code < 0 by decide) maps
  -- the other ends come before the scatterlist is filled in
  | _ => exact fun _ => rfl

/-- The records that the host driver takes use up no bytes, so none of them names any. -/
theorem HostDriver.nbytes_transfer {driver : HostDriver} {call : HostCall}
    {transfer : EngineTransfer} (empty : EmptyDma call)
    (performs : driver.transfer call = some transfer) : transfer.nbytes = 0 := by
  cases call with
  | iocDma fd dma ret =>
      rcases empty with ⟨len, chunksNr⟩
      rcases Option.map_eq_some_iff.1 performs with ⟨cb, submitted, rfl⟩
      have count : (driver.remoteArgs dma).count.toNat = 0 := by
        rw [HostDriver.remoteArgs, len]
        rfl
      rw [charSgdmaReadWriteRemote, count] at submitted
      split at submitted
      · cases submitted
      · dsimp only at submitted
        split at submitted
        · cases submitted
        · rename_i maps
          obtain rfl := Option.some.inj submitted
          exact mapRemotePages_empty chunksNr maps
  | _ => cases performs

section

variable {args : SgdmaArgs} {pinned : PinPages} {base : List HostCall}

theorem ownCalls_dma_empty {outcome : FaultOutcome} {manager : Manager} {page : ByteMem}
    (len : page.get ActionDma.len = 0) (pagesNr : page.get ActionDma.pagesNr = 1) :
    ∀ call ∈ ownCalls outcome manager page (some .dma), EmptyDma call := by
  intro call call_mem
  rw [ownCalls, ownDma] at call_mem
  split at call_mem
  · generalize translateChunks _ _ _ _ = translated at call_mem
    rcases translated with _ | chunks
    · cases call_mem
    · rcases List.mem_singleton.mp call_mem with rfl
      exact ⟨len, pagesNr⟩
  · cases call_mem

theorem dmaRequest_empty (len : pinned.len = 0) (pagesNr : pinned.pagesNr = 1) (nonce : ℕ)
    (page : ByteMem) :
    (escapePage .dma nonce (dmaRequestPage args pinned page)).get ActionDma.len = 0 ∧
      (escapePage .dma nonce (dmaRequestPage args pinned page)).get ActionDma.pagesNr = 1 := by
  have small : pinned.len < 2 ^ 64 ∧ pinned.pagesNr < 2 ^ 64 := by omega
  rw [get_escapePage (by decide), get_escapePage (by decide), dmaRequestPage_len _ small.1,
    dmaRequestPage_pagesNr _ small.2]
  exact ⟨len, pagesNr⟩

theorem keepsPeer_dmaEscape (len : pinned.len = 0) (pagesNr : pinned.pagesNr = 1) :
    (dmaEscape args pinned).KeepsPeer Host.onEscape (MadeSince EmptyDma base) := by
  intro machine since
  have requested := fun nonce => @dmaRequest_empty args pinned len pagesNr nonce machine.page
  refine ⟨fun _ _ => trivial, fun value final ran => ?_⟩
  rw [run_dmaEscape] at ran
  generalize dmaRequestPage args pinned machine.page = page at requested ran
  have kinds : ∀ call ∈ ownCalls machine.peer.outcome machine.peer.manager
      (escapePage .dma (machine.counter + 1) page) (some .dma), EmptyDma call :=
    ownCalls_dma_empty (requested _).1 (requested _).2
  have escapes : (fhDoFaulthook .dma).Ensures Host.onEscape (fun _ => True)
      { machine with page := page } fun _ final => MadeSince EmptyDma base final.peer :=
    ensures_fhDoFaulthook (by decide) (by decide) since kinds
  have reads : (do
      let ret ← Prog.loadInt ActionCommon.ret
      pure (i32 ret) : Prog ℤ).KeepsPeer Host.onEscape (MadeSince EmptyDma base) :=
    (Prog.keepsPeer_loadInt _).bind fun ret => Prog.keepsPeer_pure _
  exact (ensures_escapeChecked escapes reads).2 value final ran

/-- A buffer of no bytes is not pinned, or as one page. -/
theorem pinned_empty {kernel : PinKernel} {buf : UInt64}
    (pinning : fhPinPages kernel buf.toNat 0 = .ok pinned) :
    pinned.len = 0 ∧ pinned.pagesNr = 1 := by
  have result := fhPinPages_ok pinning
  have pos := result.pos
  have pagesNr := result.pagesNr_eq
  rw [pageCount_eq buf.toNat_lt (by omega)] at pagesNr
  simp only [pagesCovered, offsetInPage, pageSize] at pagesNr
  exact ⟨result.len, by omega⟩

theorem keepsPeer_charSgdmaReadWrite (fuel : ℕ) (count : args.count = 0) :
    (charSgdmaReadWrite fuel args).KeepsPeer Host.onEscape (MadeSince EmptyDma base) := by
  rw [charSgdmaReadWrite, count]
  rcases pinning : fhPinPages args.kernel args.buf.toNat (0 : UInt64).toNat with ret | pinned
  · exact Prog.keepsPeer_pure _
  · rcases pinned_empty pinning with ⟨len, pagesNr⟩
    dsimp only
    split
    · exact Prog.keepsPeer_pure _
    · refine Prog.keepsPeer_acquire.bind fun _ =>
        (keepsPeer_transferChunkToHost _ _ _).bind fun sent => ?_
      have releases : ∀ ret : ℤ, (Prog.release >>= fun _ => pure ret).KeepsPeer Host.onEscape
          (MadeSince EmptyDma base) :=
        fun ret => Prog.keepsPeer_release.bind fun _ => Prog.keepsPeer_pure ret
      dsimp only
      split
      · exact (Prog.keepsPeer_pure sent).bind releases
      · exact (keepsPeer_dmaEscape len pagesNr).bind releases

end

theorem StubFile.keepsPeer_ioctlDoApertureDma (file : StubFile) (fuel : ℕ)
    (io : XdmaApertureIoctl) (write : Bool) (base : List HostCall) :
    (file.ioctlDoApertureDma fuel io write).KeepsPeer Host.onEscape (MadeSince EmptyDma base) :=
  (keepsPeer_charSgdmaReadWrite fuel rfl).bind fun _ => Prog.keepsPeer_pure _

/-- A buffer that starts at a page boundary has no page in its first 0 bytes. -/
theorem fhPinPages_pageAligned (kernel : PinKernel) {buf : UInt64}
    (aligned : offsetInPage buf.toNat = 0) :
    fhPinPages kernel buf.toNat 0 = .error (-Errno.EINVAL.code) := by
  have empty : fhGetPageCount buf.toNat 0 = 0 := by
    rw [fhGetPageCount, pageCount_eq buf.toNat_lt (by decide), aligned]
    rfl
  rw [fhPinPages, if_pos empty]

theorem charSgdmaReadWrite_pageAligned {fuel : ℕ} {args : SgdmaArgs} (count : args.count = 0)
    (aligned : offsetInPage args.buf.toNat = 0) :
    charSgdmaReadWrite fuel args = pure (-Errno.EINVAL.code) := by
  rw [charSgdmaReadWrite, count, UInt64.toNat_zero, fhPinPages_pageAligned _ aligned]

/-- The stub refuses every request whose buffer starts at a page boundary. -/
theorem StubFile.ioctlDoApertureDma_pageAligned {file : StubFile} {fuel : ℕ}
    {io : XdmaApertureIoctl} {write : Bool} (aligned : offsetInPage io.buffer.toNat = 0) :
    file.ioctlDoApertureDma fuel io write =
      pure (-Errno.EINVAL.code, { io with error := Int32.ofInt (-Errno.EINVAL.code) }) := by
  simp only [StubFile.ioctlDoApertureDma]
  rw [charSgdmaReadWrite_pageAligned rfl aligned]
  rfl

/-! ## Requests that do not reach the host driver -/

section

variable {args : SgdmaArgs} {pinned : PinPages} {machine : Machine Host}

/-- The manager gives up a DMA when a record has no address, before it calls the driver. -/
theorem run_dmaEscape_unmapped {buffer : ByteMem} (serving : machine.peer.serving = true)
    (announced : machine.peer.manager.transfer.infoCtx = FhAction.dma.code)
    (allocated : machine.peer.manager.transfer.ptr = some buffer)
    (received : readChunks buffer pinned.pagesNr = pinned.pageChunks)
    (unmapped : ∃ chunk ∈ pinned.pageChunks,
      getAddrMapVaddrVerify machine.peer.manager.ctx chunk.addr = 0)
    (few : pinned.pagesNr < 2 ^ 64) :
    ∃ final, (dmaEscape args pinned).run Host.onEscape machine =
        (.done (-Errno.ENXIO.code), final) ∧
      final.peer.manager.calls = machine.peer.manager.calls := by
  obtain ⟨request, request_eq⟩ : ∃ request, request =
      escapePage .dma (machine.counter + 1) (dmaRequestPage args pinned machine.page) := ⟨_, rfl⟩
  have turn : request.get FaultData.turn = FhTurn.host.code := by
    rw [request_eq, escapePage_turn]
  have pagesNr : request.get ActionDma.pagesNr = pinned.pagesNr := by
    rw [request_eq, get_escapePage (by decide), dmaRequestPage_pagesNr _ few]
  have ended : translateChunks machine.peer.manager.ctx pinned.pagesNr 0 buffer = none := by
    by_contra translates
    rcases unmapped with ⟨chunk, chunk_mem, noAddr⟩
    rw [← received] at chunk_mem
    rcases List.mem_map.mp chunk_mem with ⟨index, index_mem, rfl⟩
    have mapped := (translateChunks_ne_none_iff _ _ 0 buffer).mp translates index
      (List.mem_range.mp index_mem)
    rw [Nat.zero_add] at mapped
    exact mapped noAddr
  have handled : handleAction machine.peer.outcome machine.peer.manager request =
      some (dmaClean machine.peer.outcome machine.peer.manager request (-1 : Int32).toInt) := by
    have known : FhAction.ofCode (request.get FaultData.action) = some .dma := by
      rw [request_eq, escapePage_action, FhAction.ofCode_code]
    have present : ¬(pinned.pagesNr ≠ 0 ∧ (some buffer = none)) := by simp
    simp only [handleAction, known, doDma, announced, ne_eq, not_true_eq_false, ↓reduceIte,
      allocated, pagesNr, present, Option.getD_some, ended]
    rfl
  refine ⟨(escaping .dma { machine with
    page := dmaRequestPage args pinned machine.page }).answered Host.onEscape, ?_, ?_⟩
  · rw [run_dmaEscape]
    rw [request_eq] at handled
    exact @run_escapeChecked_dmaClean
      { machine with page := dmaRequestPage args pinned machine.page } _ _ _ (-1) serving handled
  · simp only [Machine.answered, escaping, ← request_eq, Host.onEscape_manager serving turn handled]
    rfl

/-- The manager of the host does not get as far as the ioctl: it is not there, has no memory for
the records, or has no address for one of them. -/
def Host.Unable (host : Host) (pinned : PinPages) : Prop :=
  host.serving = true → host.outcome.malloc ≠ none →
    ∃ chunk ∈ pinned.pageChunks, getAddrMapVaddrVerify host.manager.ctx chunk.addr = 0

theorem calls_of_transferChunkToHost {fuel : ℕ} {data : List UInt8} {infoCtx : Int32}
    {result : ℤ} {final : Machine Host}
    (ran : (transferChunkToHost fuel data infoCtx).run Host.onEscape machine =
      (.done result, final)) :
    final.peer.manager.calls = machine.peer.manager.calls := by
  rcases ((keepsPeer_transferChunkToHost fuel data infoCtx) machine
    (MadeSince.refl (fun _ => False) machine.peer)).2 _ _ ran with ⟨made, calls, none⟩
  rw [calls, List.eq_nil_iff_forall_not_mem.mpr none, List.append_nil]

theorem run_sgdmaLocked_unable (free : machine.locked = false)
    (unable : machine.peer.Unable pinned) (pos : 0 < pinned.pagesNr)
    (few : pinned.pagesNr < 2 ^ 27) (inRange : ∀ chunk ∈ pinned.pageChunks, chunk.InRange) :
    ∃ rounds final, (∀ fuel, rounds ≤ fuel →
        (sgdmaLocked fuel args pinned).run Host.onEscape machine =
          (.done (-Errno.ENXIO.code), final)) ∧
      final.peer.manager.calls = machine.peer.manager.calls := by
  have length : (chunkBytes pinned.pageChunks).length = 24 * pinned.pagesNr := by
    rw [length_chunkBytes, pinned.length_pageChunks, PageChunk.size]
  have nonempty : (chunkBytes pinned.pageChunks).length ≠ 0 := by omega
  have failed : -Errno.ENXIO.code ≠ 0 := by decide
  by_cases absent : machine.peer.serving = false ∨ machine.peer.outcome.malloc = none
  · rcases @run_sendHandshake_failed { machine with locked := true }
      (chunkBytes pinned.pageChunks) (Int32.ofInt FhAction.dma.code) absent with ⟨sent, refused⟩
    have transfers : ∀ fuel, (transferChunkToHost fuel (chunkBytes pinned.pageChunks)
        (Int32.ofInt FhAction.dma.code)).run Host.onEscape { machine with locked := true } =
          (.done (-Errno.ENXIO.code), sent) := by
      intro fuel
      rw [transferChunkToHost, if_neg nonempty, Prog.run_bind_of_done _ refused, if_pos failed,
        Prog.run_pure]
    have calls := calls_of_transferChunkToHost (transfers 0)
    refine ⟨0, { sent with locked := false }, ?_, calls⟩
    intro fuel _
    rw [sgdmaLocked, Prog.run_bind_of_done _ (Prog.run_acquire_of_free _ free),
      Prog.run_bind_of_done _ (transfers fuel), if_pos (by decide),
      Prog.run_bind_of_done _ (Prog.run_pure _ _ _),
      Prog.run_bind_of_done _ (Prog.run_release _ sent), Prog.run_pure]
  · rcases not_or.mp absent with ⟨running, allocated⟩
    have serving : machine.peer.serving = true := by simpa using running
    have bounded : (chunkBytes pinned.pageChunks).length < 2 ^ 64 := by omega
    rcases run_transferChunkToHost (Int32.ofInt FhAction.dma.code) { machine with locked := true }
      (Nat.pos_of_ne_zero nonempty) bounded
      with ⟨ret, sent, transfers, returned, receives⟩
    have success : ret = 0 := returned.mpr ⟨serving, allocated, by omega⟩
    subst success
    have receiving := receives rfl
    rcases receiving.buffer with ⟨buffer, buffer_eq, content⟩
    have received : readChunks buffer pinned.pagesNr = pinned.pageChunks := by
      rw [← pinned.length_pageChunks]
      apply readChunks_of_readBytes inRange
      rw [Nat.sub_zero, List.take_length, length_chunkBytes] at content
      exact content
    have announced : sent.peer.manager.transfer.infoCtx = FhAction.dma.code := by
      rw [receiving.infoCtx]
      decide
    rcases @run_dmaEscape_unmapped args pinned sent buffer receiving.serving announced buffer_eq
      received (by rw [receiving.ctx]; exact unable serving allocated) (by omega)
      with ⟨final, escapes, calls⟩
    refine ⟨(chunkBytes pinned.pageChunks).length, { final with locked := false }, ?_,
      calls.trans receiving.calls⟩
    intro fuel enough
    rw [sgdmaLocked, Prog.run_bind_of_done _ (Prog.run_acquire_of_free _ free),
      Prog.run_bind_of_done _ (transfers fuel enough), if_neg (by omega),
      Prog.run_bind_of_done _ escapes, Prog.run_bind_of_done _ (Prog.run_release _ final),
      Prog.run_pure]

theorem run_sgdmaLocked_of_held (fuel : ℕ) (held : machine.locked = true) :
    ((sgdmaLocked fuel args pinned).run Host.onEscape machine).1 = .deadlock := by
  rw [sgdmaLocked, Prog.run_bind, Prog.acquire, Prog.run, if_pos held]
  rfl

end

/-- How the stub gives up a request for no bytes before the host driver is called, by the error. -/
inductive StubFile.Refuses (file : StubFile) (machine : Machine Host) (io : XdmaApertureIoctl) :
    ℤ → Prop
  | notPinned {rv : ℤ} (pinning : fhPinPages file.kernel io.buffer.toNat 0 = .error rv) :
      file.Refuses machine io rv
  | tooSmall {pinned : PinPages} (pinning : fhPinPages file.kernel io.buffer.toNat 0 = .ok pinned)
      (small : file.escapeSize < ActionDma.size + PageChunk.size) :
      file.Refuses machine io (-Errno.ENOMEM.code)
  | unable {pinned : PinPages} (pinning : fhPinPages file.kernel io.buffer.toNat 0 = .ok pinned)
      (room : ActionDma.size + PageChunk.size ≤ file.escapeSize)
      (free : machine.locked = false) (unable : machine.peer.Unable pinned) :
      file.Refuses machine io (-Errno.ENXIO.code)

section

variable {file : StubFile} {machine : Machine Host} {io : XdmaApertureIoctl} {write : Bool}

theorem StubFile.Refuses.neg {rv : ℤ} (refuses : file.Refuses machine io rv) : rv < 0 := by
  cases refuses with
  | notPinned pinning => exact fhPinPages_error pinning
  | tooSmall _ _ => decide
  | unable _ _ _ _ => decide

/-- A request for no bytes takes one record. -/
theorem charSgdmaReadWrite_empty {args : SgdmaArgs} (count : args.count = 0) (fuel : ℕ) :
    charSgdmaReadWrite fuel args =
      match fhPinPages args.kernel args.buf.toNat 0 with
      | .error rv => pure rv
      | .ok pinned =>
          if args.escapeSize < ActionDma.size + PageChunk.size then pure (-Errno.ENOMEM.code)
          else sgdmaLocked fuel args pinned := by
  rw [charSgdmaReadWrite, count, UInt64.toNat_zero]
  rcases pinning : fhPinPages args.kernel args.buf.toNat 0 with rv | pinned
  · rfl
  · dsimp only
    rw [(pinned_empty pinning).2, Nat.one_mul]

/-- The request as the stub copies it back. -/
def XdmaApertureIoctl.reporting (io : XdmaApertureIoctl) (rv : ℤ) : XdmaApertureIoctl :=
  if 0 < rv then { io with error := Int32.ofInt rv, done := UInt64.ofInt rv }
  else { io with error := Int32.ofInt rv }

theorem StubFile.ioctlDoApertureDma_eq (file : StubFile) (io : XdmaApertureIoctl)
    (write : Bool) :
    ∃ args : SgdmaArgs, args.count = 0 ∧ args.kernel = file.kernel ∧ args.buf = io.buffer ∧
      args.escapeSize = file.escapeSize ∧
      ∀ fuel, file.ioctlDoApertureDma fuel io write = charSgdmaReadWrite fuel args >>= fun rv =>
        pure ((io.reporting rv).error.toInt, io.reporting rv) :=
  ⟨_, rfl, rfl, rfl, rfl, fun _ => rfl⟩

/-- A request that the stub refuses comes back with the error, and the manager has called
nothing. -/
theorem StubFile.Refuses.run {rv : ℤ} (refuses : file.Refuses machine io rv) (write : Bool) :
    ∃ rounds final, (∀ fuel, rounds ≤ fuel →
        (file.ioctlDoApertureDma fuel io write).run Host.onEscape machine =
          (.done ((Int32.ofInt rv).toInt, { io with error := Int32.ofInt rv }), final)) ∧
      final.peer.manager.calls = machine.peer.manager.calls := by
  rcases file.ioctlDoApertureDma_eq io write with ⟨args, count, kernel, buf, escapeSize, stub⟩
  have reported : io.reporting rv = { io with error := Int32.ofInt rv } :=
    if_neg (not_lt.mpr refuses.neg.le)
  have comesBack : ∀ {fuel final},
      (charSgdmaReadWrite fuel args).run Host.onEscape machine = (.done rv, final) →
        (file.ioctlDoApertureDma fuel io write).run Host.onEscape machine =
          (.done ((Int32.ofInt rv).toInt, { io with error := Int32.ofInt rv }), final) := by
    intro fuel final ran
    rw [stub, Prog.run_bind_of_done _ ran, Prog.run_pure, reported]
  cases refuses with
  | notPinned pinning =>
      refine ⟨0, machine, fun fuel _ => comesBack ?_, rfl⟩
      rw [charSgdmaReadWrite_empty count, kernel, buf, pinning]
      rfl
  | tooSmall pinning small =>
      refine ⟨0, machine, fun fuel _ => comesBack ?_, rfl⟩
      rw [charSgdmaReadWrite_empty count, kernel, buf, pinning]
      dsimp only
      rw [escapeSize, if_pos small]
      rfl
  | @unable pinned pinning room free unable =>
      have result := fhPinPages_ok pinning
      have onePage := (pinned_empty pinning).2
      rcases @run_sgdmaLocked_unable args pinned machine free unable result.pos (by omega)
        result.chunk_inRange with ⟨rounds, final, ran, calls⟩
      refine ⟨rounds, final, fun fuel enough => comesBack ?_, calls⟩
      rw [← ran fuel enough, charSgdmaReadWrite_empty count, kernel, buf, pinning]
      dsimp only
      rw [escapeSize, if_neg (not_lt.mpr room)]

/-- Any other request that comes back has made the manager call the host driver. -/
theorem StubFile.calls_of_not_refuses (takes : ∀ rv, ¬file.Refuses machine io rv) {rounds : ℕ}
    {result : ℤ × XdmaApertureIoctl} {final : Machine Host}
    (ran : ∀ fuel, rounds ≤ fuel →
      (file.ioctlDoApertureDma fuel io write).run Host.onEscape machine =
        (.done result, final)) :
    final.peer.manager.calls ≠ machine.peer.manager.calls := by
  rcases file.ioctlDoApertureDma_eq io write with ⟨args, count, kernel, buf, escapeSize, stub⟩
  rcases pinning : fhPinPages file.kernel io.buffer.toNat 0 with rv | pinned
  · exact absurd (.notPinned pinning) (takes rv)
  rcases lt_or_ge file.escapeSize (ActionDma.size + PageChunk.size) with small | room
  · exact absurd (.tooSmall pinning small) (takes _)
  have locks : ∀ fuel, charSgdmaReadWrite fuel args = sgdmaLocked fuel args pinned := by
    intro fuel
    rw [charSgdmaReadWrite_empty count, kernel, buf, pinning]
    dsimp only
    rw [escapeSize, if_neg (not_lt.mpr room)]
  cases held : machine.locked with
  | true =>
      have waits := @run_sgdmaLocked_of_held args pinned machine rounds held
      have done := ran rounds le_rfl
      rw [stub, locks, Prog.run_bind] at done
      rcases ended : (sgdmaLocked rounds args pinned).run Host.onEscape machine with ⟨stuck, left⟩
      rw [ended] at waits done
      subst waits
      cases done
  | false =>
      have able : ¬machine.peer.Unable pinned :=
        fun unable => takes _ (.unable pinning room held unable)
      simp only [Host.Unable, Classical.not_imp, not_exists, not_and] at able
      rcases able with ⟨serving, allocated, mapped⟩
      have result := fhPinPages_ok pinning
      rcases pinned_empty pinning with ⟨len, onePage⟩
      rcases @run_sgdmaLocked_asks args pinned machine held serving allocated result.pos
        (by omega) (by omega) result.chunk_inRange mapped
        with ⟨enough, asked, fd, dma, ret, runs, calls, -⟩
      have done := ran (max rounds enough) (le_max_left _ _)
      rw [stub, locks, Prog.run_bind_of_done _ (runs _ (le_max_right _ _)), Prog.run_pure] at done
      obtain ⟨-, rfl⟩ := Prod.mk.inj done
      rw [calls]
      simp

end

/-! ## The two drivers -/

/-- What the host driver hands to the engine for the calls that the manager has made in between. -/
def HostDriver.transfers (driver : HostDriver) (before after : Host) : List EngineTransfer :=
  (after.manager.calls.drop before.manager.calls.length).filterMap driver.transfer

/-- What has come of a request of a guest is what comes of it on the plain driver: the result, the
two fields that report it, and the transfers that are performed. The host driver is not even called
for a request that the plain driver refuses. -/
structure ApertureOutcome.Matches (native : ApertureOutcome) (driver : HostDriver)
    (before after : Host) (ret : ℤ) (reported : XdmaApertureIoctl) : Prop where
  ret : ret = native.ret
  error : reported.error = native.io.error
  done : reported.done = native.io.done
  transfers : List.Forall₂ EngineTransfer.Same (driver.transfers before after)
    native.transfer.toList
  calls : native.transfer = none → after.manager.calls = before.manager.calls

/-- The request of a guest ends, and what has come of it is what comes of the same request on the
plain driver. -/
def ApertureAgrees (native : ApertureDriver) (file : StubFile) (driver : HostDriver)
    (machine : Machine Host) (io : XdmaApertureIoctl) (write : Bool) : Prop :=
  ∃ rounds ret reported final,
    (∀ fuel, rounds ≤ fuel → (file.ioctlDoApertureDma fuel io write).run Host.onEscape machine =
      (.done (ret, reported), final)) ∧
    (native.ioctlDoApertureDma io write).Matches driver machine.peer final.peer ret reported

theorem HostDriver.nbytes_transfers {driver : HostDriver} {before after : Host}
    (since : MadeSince EmptyDma before.manager.calls after) :
    ∀ transfer ∈ driver.transfers before after, transfer.nbytes = 0 := by
  rcases since with ⟨made, calls, empty⟩
  intro transfer transfer_mem
  rw [HostDriver.transfers, calls, List.drop_left] at transfer_mem
  rcases List.mem_filterMap.mp transfer_mem with ⟨call, call_mem, performs⟩
  exact driver.nbytes_transfer (empty call call_mem) performs

/-- Both drivers refuse the request, with the error that it holds already. -/
structure BothRefuse (native : ApertureDriver) (file : StubFile) (machine : Machine Host)
    (io : XdmaApertureIoctl) (write : Bool) : Prop where
  native : native.refusal io write = some io.error.toInt
  stub : ∃ rv, file.Refuses machine io rv ∧ Int32.ofInt rv = io.error

/-- Whatever the host performs for the stub has no bytes. -/
theorem not_apertureAgrees_of_accepted {native : ApertureDriver} {file : StubFile}
    {driver : HostDriver} {machine : Machine Host} {io : XdmaApertureIoctl} {write : Bool}
    {transfer : EngineTransfer}
    (performs : (native.ioctlDoApertureDma io write).transfer = some transfer)
    (nonempty : 0 < transfer.nbytes) :
    ¬ApertureAgrees native file driver machine io write := by
  rintro ⟨rounds, ret, reported, final, ran, matched⟩
  have since := (file.keepsPeer_ioctlDoApertureDma rounds io write machine.peer.manager.calls
    machine (.refl _ _)).2 _ _ (ran rounds le_rfl)
  have same := matched.transfers
  rw [performs, Option.toList_some] at same
  rcases List.forall₂_cons_right_iff.mp same with ⟨hosts, rest, same, -, transfers⟩
  have empty := driver.nbytes_transfers since hosts (by rw [transfers]; exact List.mem_cons_self)
  rw [same.nbytes] at empty
  omega

/--
A request of a guest ends as it does on the plain driver if and only if both drivers
refuse it, with the error that it holds already: the plain driver does not store its
error, and no transfer that it performs is done for a guest.
-/
theorem apertureAgrees_iff (native : ApertureDriver) (file : StubFile) (driver : HostDriver)
    (machine : Machine Host) (io : XdmaApertureIoctl) (write : Bool)
    (nonempty : 1 ≤ io.len.toNat) :
    ApertureAgrees native file driver machine io write ↔
      BothRefuse native file machine io write := by
  rcases native.transfer_cases io write with ⟨code, refusal, refused⟩ |
    ⟨accepts, transfer, performs, nbytes⟩
  · constructor
    · rintro ⟨rounds, ret, reported, final, ran, matched⟩
      rw [refused] at matched
      by_cases takes : ∃ rv, file.Refuses machine io rv
      · rcases takes with ⟨rv, refuses⟩
        rcases refuses.run write with ⟨enough, left, stub, -⟩
        have both := (ran _ (le_max_left rounds enough)).symm.trans
          (stub _ (le_max_right rounds enough))
        obtain ⟨done, -⟩ := Prod.mk.inj both
        obtain ⟨rfl, rfl⟩ := Prod.mk.inj (Result.done.inj done)
        have error : Int32.ofInt rv = io.error := matched.error
        have result : (Int32.ofInt rv).toInt = code := matched.ret
        exact ⟨by rw [refusal, ← result, error], rv, refuses, error⟩
      · exact absurd (matched.calls rfl)
          (StubFile.calls_of_not_refuses (not_exists.mp takes) ran)
    · rintro ⟨same, rv, refuses, error⟩
      rcases refuses.run write with ⟨rounds, final, ran, calls⟩
      have code_eq : code = io.error.toInt := Option.some.inj (refusal.symm.trans same)
      refine ⟨rounds, _, _, final, ran, ?_⟩
      rw [refused, error]
      refine ⟨code_eq.symm, rfl, rfl, ?_, fun _ => calls⟩
      rw [HostDriver.transfers, calls, List.drop_length]
      exact .nil
  · refine iff_of_false (not_apertureAgrees_of_accepted performs (by omega)) fun both => ?_
    have refusal := both.native
    rw [accepts] at refusal
    cases refusal

def ApertureDriver.writesTwoPages : ApertureDriver where
  engine := ⟨magicEngine, .toDevice, 1, 1, false⟩
  kernel := ⟨true, true, .ok [Page.ofPfn 1, Page.ofPfn 2]⟩
  xferAperture := 4096

def HostDriver.submits : HostDriver where
  xcdev := some ⟨magicChar, some ⟨magicDevice⟩, some ⟨magicEngine, .toDevice, 1, 1, false⟩⟩
  kernel := ⟨true, true, fun _ => true, fun _ vaddr => .pinned (Page.ofPfn (vaddr / pageSize))⟩
  xferSubmit := 0

def XdmaApertureIoctl.acrossPages : XdmaApertureIoctl where
  epAddr := 0x1000
  aperture := 64
  buffer := 0x7f0800
  len := 4096
  error := 0
  done := 0

def XdmaApertureIoctl.wholePage : XdmaApertureIoctl :=
  { XdmaApertureIoctl.acrossPages with buffer := 0x7f0000 }

/-- The drivers agree on a read of a whole page from an engine that only writes, if the request
holds the error of both. -/
theorem apertureAgrees_iff_acrossPages :
    ¬ApertureAgrees .writesTwoPages ⟨3, ⟨true, true, .ok [Page.ofPfn 1]⟩, 4096⟩ .submits
      .twoMapped .acrossPages true ∧
    ApertureAgrees .writesTwoPages ⟨3, ⟨true, true, .ok [Page.ofPfn 1]⟩, 4096⟩ .submits
      .twoMapped { XdmaApertureIoctl.wholePage with error := -22 } false := by
  constructor
  · rw [apertureAgrees_iff _ _ _ _ _ _ (by decide)]
    intro both
    exact absurd both.native (by decide)
  · rw [apertureAgrees_iff _ _ _ _ _ _ (by decide)]
    exact ⟨by decide, -22, .notPinned (fhPinPages_pageAligned _ (by decide)), by decide⟩

/-- For a page, the plain driver transfers 4096 bytes, and the stub gives up before it escapes. -/
theorem apertureAgrees_wholePage :
    let native : ApertureDriver :=
      { ApertureDriver.writesTwoPages with kernel := ⟨true, true, .ok [Page.ofPfn 1]⟩ }
    let file : StubFile := ⟨3, ⟨true, true, .ok [Page.ofPfn 1]⟩, 4096⟩
    (native.ioctlDoApertureDma .wholePage true).transfer.map EngineTransfer.nbytes = some 4096 ∧
    (∀ fuel, (file.ioctlDoApertureDma fuel .wholePage true).run Host.onEscape .twoMapped =
      (.done (-22, { XdmaApertureIoctl.wholePage with error := -22 }), .twoMapped)) ∧
    ¬ApertureAgrees native file .submits .twoMapped .wholePage true := by
  intro native file
  have refused : ∀ fuel,
      (file.ioctlDoApertureDma fuel .wholePage true).run Host.onEscape .twoMapped =
        (.done (-22, { XdmaApertureIoctl.wholePage with error := -22 }), .twoMapped) := by
    intro fuel
    rw [StubFile.ioctlDoApertureDma_pageAligned (by decide)]
    rfl
  have native_nbytes :
      (native.ioctlDoApertureDma .wholePage true).transfer.map EngineTransfer.nbytes =
        some 4096 := by decide
  rcases Option.map_eq_some_iff.1 native_nbytes with ⟨transfer, performs, nbytes⟩
  exact ⟨native_nbytes, refused, not_apertureAgrees_of_accepted performs (by omega)⟩

end Acai
