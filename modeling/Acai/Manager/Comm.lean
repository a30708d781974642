import Acai.Manager.AddrMap

/-!
# The host's fault handler

This file models `fpga_comm.c`: the handler `on_fault` that the manager runs on
the escape page for every fault of the guest, with each of its actions, and the
four static variables that carry an escape-data transfer from one fault to the
next.

A fault is served with the outcomes of the system calls and allocations made on
the way (`FaultOutcome`); the calls themselves are recorded with their arguments
and results (`HostCall`). The handler gives `none` when the process dies: it
dereferences a null transfer buffer, or the page frame numbers of a request lead
it out of the mapped escape buffer. The transfer buffer is a memory that goes on
behind its last byte, as the heap does: an access past the end of its allocation
reads or writes what lies there.

`FH_ACTION_UNMAP` has no `break` in the source and runs on into the handler of
`FH_ACTION_DMA`; `handleUnmap` does the same.
-/

namespace Acai

/-- The state of an escape-data transfer (`action_transfer_data_*`). -/
structure TransferState where
  /-- The transfer buffer; `none` is the null pointer. -/
  ptr : Option ByteMem
  size : ℕ
  infoCtx : ℕ
  chunk : ℕ

def TransferState.initial : TransferState where
  ptr := none
  size := 0
  infoCtx := 0
  chunk := 0

structure IocMmap where
  pid : Int32
  vmPgoff : ℕ
  vmPageProt : ℕ
  vmFlags : ℕ
  addr : List UInt64
  addrSize : ℕ
  deriving DecidableEq

structure IocUnmmap where
  pid : Int32
  addr : List UInt64
  addrSize : ℕ
  deriving DecidableEq

structure FhHostIoctlDma where
  pid : Int32
  phyAddr : ℕ
  doWrite : ℤ
  doAperture : ℤ
  userBuf : ℕ
  len : ℕ
  chunksNr : ℕ
  chunks : List PageChunk
  deriving DecidableEq

/-- A device call of the manager, with its arguments and its result. -/
inductive HostCall where
  | openDevice (device : List UInt8) (flags : ℕ) (ret : ℤ)
  | closeDevice (fd : ℤ) (ret : ℤ)
  | iocMmap (fd : ℤ) (ioc : IocMmap) (ret : ℤ)
  | iocUnmmap (fd : ℤ) (ioc : IocUnmmap) (ret : ℤ)
  | iocDma (fd : ℤ) (dma : FhHostIoctlDma) (ret : ℤ)
  deriving DecidableEq

def HostCall.ret : HostCall → ℤ
  | openDevice _ _ ret | closeDevice _ ret | iocMmap _ _ ret | iocUnmmap _ _ ret
  | iocDma _ _ ret => ret

structure Manager where
  ctx : CtxStruct
  transfer : TransferState
  calls : List HostCall

namespace Manager

def addCall (manager : Manager) (call : HostCall) : Manager :=
  { manager with calls := manager.calls ++ [call] }

end Manager

/-- How the system calls and the allocation of one fault end. -/
structure FaultOutcome where
  openRet : Int32
  closeRet : Int32
  mmapRet : Int32
  unmmapRet : Int32
  dmaRet : Int32
  errno : Int32
  /-- The block that `malloc` returns, with its old contents; `none` when it fails. -/
  malloc : Option ByteMem

def setRetAndErrNo (page : ByteMem) (ret errno : ℤ) : ByteMem :=
  ((page.setInt ActionCommon.fd ret).setInt ActionCommon.ret ret).setInt ActionCommon.errNo
    (if ret < 0 then errno else 0)

def setRetAndErrNoDirect (page : ByteMem) (ret : ℤ) : ByteMem :=
  ((page.setInt ActionCommon.fd ret).setInt ActionCommon.ret ret).setInt ActionCommon.errNo ret

def getMappedEscapeBufferSize : ℕ := escapePageSize

/-- Where a handler of `on_fault` leaves the manager and the page; a negative first
component makes `on_fault` return at once. -/
abbrev Handled := ℤ × Manager × ByteMem

/-! ## Escape-data transfer -/

def transferMax : ℕ :=
  getMappedEscapeBufferSize - ActionTransferEscapeData.size - FaultData.data

def doActionTransferEscapeDataFree (manager : Manager) : Manager :=
  { manager with transfer := TransferState.initial }

def transferHandshake (outcome : FaultOutcome) (manager : Manager) (page : ByteMem) : Handled :=
  let offered := page.set ActionTransferEscapeData.chunkSize transferMax
  let started : TransferState :=
    { ptr := outcome.malloc
      size := offered.get ActionTransferEscapeData.totalSize
      infoCtx := offered.get ActionTransferEscapeData.infoCtx
      chunk := 0 }
  match outcome.malloc with
  | none =>
      (-1, { manager with transfer := started },
        offered.setInt ActionTransferEscapeData.status TransferStatus.error.code)
  | some _ =>
      (0, { manager with transfer := started },
        offered.setInt ActionTransferEscapeData.status TransferStatus.ok.code)

def chunkTransfer (page : ByteMem) : ℕ :=
  min (page.get ActionTransferEscapeData.chunkDataSize) transferMax

def transferChunk (manager : Manager) (page : ByteMem) : Option Handled :=
  let state := manager.transfer
  let transfer := chunkTransfer page
  let page' := page.setInt ActionTransferEscapeData.status TransferStatus.ok.code
  if state.size < u64 (state.chunk + transfer) then
    some (-1, manager, page)
  else
    match state.ptr with
    | some buffer =>
        some (0,
          { manager with
            transfer :=
              { state with
                ptr := some (buffer.writeBytes state.chunk
                  (page.readBytes ActionTransferEscapeData.chunkData transfer))
                chunk := u64 (state.chunk + transfer) } },
          page')
    | none => if transfer = 0 then some (0, manager, page') else none

def doActionTransferEscapeData (outcome : FaultOutcome) (manager : Manager) (page : ByteMem) :
    Option Handled :=
  let status := page.getInt ActionTransferEscapeData.status
  if status = TransferStatus.transferSize.code then
    some (transferHandshake outcome manager page)
  else if status = TransferStatus.transferData.code then
    transferChunk manager page
  else
    some (0, manager, page)

/-! ## DMA -/

def chunkAddr (index : ℕ) : Field := ⟨PageChunk.size * index, 8⟩

/--
The translation loop of `do_dma` for `count` records from `index` on; `none` when
a page frame number has no address.
-/
def translateChunks (ctx : CtxStruct) : ℕ → ℕ → ByteMem → Option ByteMem
  | 0, _, chunks => some chunks
  | count + 1, index, chunks =>
      let vaddr := getAddrMapVaddrVerify ctx (chunks.get (chunkAddr index))
      if vaddr = 0 then none
      else translateChunks ctx count (index + 1) (chunks.set (chunkAddr index) vaddr.toNat)

def readChunks (chunks : ByteMem) (count : ℕ) : List PageChunk :=
  (List.range count).map fun index => PageChunk.ofMem chunks (PageChunk.size * index)

def dmaRequest (manager : Manager) (page chunks : ByteMem) : FhHostIoctlDma where
  pid := manager.ctx.targetPid
  phyAddr := page.get ActionDma.phyAddr
  doWrite := page.getInt ActionDma.doWrite
  doAperture := page.getInt ActionDma.doAperture
  userBuf := page.get ActionDma.userBuf
  len := page.get ActionDma.len
  chunksNr := page.get ActionDma.pagesNr
  chunks := readChunks chunks (page.get ActionDma.pagesNr)

def dmaClean (outcome : FaultOutcome) (manager : Manager) (page : ByteMem) (ret : ℤ) : Handled :=
  (ret, doActionTransferEscapeDataFree manager, setRetAndErrNo page ret outcome.errno.toInt)

def doDma (outcome : FaultOutcome) (manager : Manager) (page : ByteMem) : Option Handled :=
  let pagesNr := page.get ActionDma.pagesNr
  if manager.transfer.infoCtx ≠ FhAction.dma.code then
    some (-1, manager, setRetAndErrNo page (-1) outcome.errno.toInt)
  else if pagesNr ≠ 0 ∧ manager.transfer.ptr = none then
    none
  else
    match translateChunks manager.ctx pagesNr 0 (manager.transfer.ptr.getD ByteMem.zero) with
    | none => some (dmaClean outcome manager page (-1))
    | some chunks =>
        let call := HostCall.iocDma (page.getInt ActionCommon.fd)
          (dmaRequest manager page chunks) outcome.dmaRet.toInt
        some (dmaClean outcome (manager.addCall call) page outcome.dmaRet.toInt)

/-! ## The other actions -/

/-- The search loop of `FH_ACTION_GET_EMPTY_MAPPINGS` over at most `count` page frame numbers. -/
def emptyMappingsLoop (ctx : CtxStruct) (maxMappings : ℕ) : ℕ → ℕ → ℕ → ByteMem → ℕ × ℕ × ByteMem
  | 0, pfn, found, page => (pfn, found, page)
  | count + 1, pfn, found, page =>
      if maxMappings ≤ found then (pfn, found, page)
      else if getAddrMapVaddrVerify ctx pfn = 0 then
        emptyMappingsLoop ctx maxMappings count (pfn + 1) (found + 1)
          (page.set (ActionEmptyMappings.pfn found) pfn)
      else emptyMappingsLoop ctx maxMappings count (pfn + 1) found page

def handleEmptyMappings (manager : Manager) (page : ByteMem) : Handled :=
  let hostMax :=
    (getMappedEscapeBufferSize - FaultData.data - ActionEmptyMappings.size) / 8
  let maxMappings := min hostMax (page.get ActionEmptyMappings.pfnMaxNrGuest)
  let pfnMax := manager.ctx.addrMapPfnMax.toNat
  let lastPfn := page.get ActionEmptyMappings.lastPfn
  let start := if lastPfn = 0 then manager.ctx.addrMapPfnMin.toNat else lastPfn
  let (pfn, found, page') :=
    emptyMappingsLoop manager.ctx maxMappings (pfnMax - start) start 0 page
  let next := if found = maxMappings ∧ pfn < pfnMax then pfn else 0
  (0, manager,
    setRetAndErrNoDirect
      ((page'.set ActionEmptyMappings.lastPfn next).set ActionEmptyMappings.pfnNr found) 0)

def handlePing (manager : Manager) (page : ByteMem) : Handled :=
  (0, manager, page.setInt ActionPing.ping (page.getInt ActionPing.ping + 1))

def handleVerifyMapping (manager : Manager) (page : ByteMem) : Handled :=
  let vaddr := getAddrMapVaddrVerify manager.ctx (page.get ActionVerifyMapping.pfn)
  let status := if vaddr ≠ 0 then VerifyStatus.success else VerifyStatus.fail
  (0, manager, page.set ActionVerifyMapping.status status.code)

/-- The path that `open` reads from the page: up to the first null byte, `PATH_MAX` at most. -/
def devicePath (page : ByteMem) : List UInt8 :=
  (page.readBytes ActionOpenclose.device 4096).takeWhile (· ≠ 0)

def handleOpen (outcome : FaultOutcome) (manager : Manager) (page : ByteMem) : Handled :=
  let fd := outcome.openRet.toInt
  (0, manager.addCall (.openDevice (devicePath page) (page.get ActionOpenclose.flags) fd),
    setRetAndErrNo (page.setInt ActionCommon.fd fd) fd outcome.errno.toInt)

def handleClose (outcome : FaultOutcome) (manager : Manager) (page : ByteMem) : Handled :=
  let ret := outcome.closeRet.toInt
  (0, manager.addCall (.closeDevice (page.getInt ActionCommon.fd) ret),
    setRetAndErrNo page ret outcome.errno.toInt)

def pfnAddrs (ctx : CtxStruct) (page : ByteMem) (pfn : ℕ → Field) (count : ℕ) : List UInt64 :=
  (List.range count).map fun index => getAddrMapVaddr ctx (page.get (pfn index))

/-- The round of the loop below at `index` reads from the mapping, stores to the block, and leaves
an index that is an `int`. -/
def AddrInBounds (pfn : ℕ → Field) (size index : ℕ) : Prop :=
  (pfn index).offset + (pfn index).width ≤ getMappedEscapeBufferSize ∧
    8 * (index + 1) ≤ size ∧ index + 1 < 2 ^ 31

instance (pfn : ℕ → Field) (size index : ℕ) : Decidable (AddrInBounds pfn size index) :=
  inferInstanceAs (Decidable (_ ∧ _))

/--
The loop that fills `addrs`, a block of `size` bytes, with the addresses of `count` page frame
numbers from `index` on. The count comes from the page and nothing bounds it; a round that is out
of bounds ends the process.
-/
def fillAddrs (ctx : CtxStruct) (page : ByteMem) (pfn : ℕ → Field) (size : ℕ) :
    ℕ → ℕ → Option (List UInt64)
  | 0, _ => some []
  | count + 1, index =>
      if AddrInBounds pfn size index then
        (fillAddrs ctx page pfn size count (index + 1)).map
          (getAddrMapVaddr ctx (page.get (pfn index)) :: ·)
      else none

def mmapCall (outcome : FaultOutcome) (manager : Manager) (page : ByteMem)
    (addrs : List UInt64) : HostCall :=
  .iocMmap (page.getInt ActionCommon.fd)
    { pid := manager.ctx.targetPid
      vmPgoff := page.get ActionMmapDevice.vmPgoff
      vmPageProt := page.get ActionMmapDevice.vmPageProt
      vmFlags := page.get ActionMmapDevice.vmFlags
      addr := addrs
      addrSize := page.get ActionMmapDevice.pfnSize } outcome.mmapRet.toInt

def handleMmap (outcome : FaultOutcome) (manager : Manager) (page : ByteMem) : Option Handled :=
  match outcome.malloc with
  | none => some (-1, manager, page)
  | some _ =>
      let pfnSize := page.get ActionMmapDevice.pfnSize
      match fillAddrs manager.ctx page ActionMmapDevice.pfn (u64 (pfnSize * 8)) pfnSize 0 with
      | none => none
      | some addrs =>
          some (0, manager.addCall (mmapCall outcome manager page addrs),
            setRetAndErrNo page outcome.mmapRet.toInt outcome.errno.toInt)

def unmapCall (outcome : FaultOutcome) (manager : Manager) (page : ByteMem)
    (addrs : List UInt64) : HostCall :=
  .iocUnmmap (page.getInt ActionCommon.fd)
    { pid := manager.ctx.targetPid
      addr := addrs
      addrSize := page.get ActionUnmap.pfnSize } outcome.unmmapRet.toInt

/-- `FH_ACTION_UNMAP`, which falls through into `FH_ACTION_DMA`. -/
def handleUnmap (outcome : FaultOutcome) (manager : Manager) (page : ByteMem) : Option Handled :=
  match outcome.malloc with
  | none => some (-1, manager, page)
  | some _ =>
      let pfnSize := page.get ActionUnmap.pfnSize
      match fillAddrs manager.ctx page ActionUnmap.pfn (u64 (pfnSize * 8)) pfnSize 0 with
      | none => none
      | some addrs =>
          doDma outcome (manager.addCall (unmapCall outcome manager page addrs))
            (setRetAndErrNo page outcome.unmmapRet.toInt outcome.errno.toInt)

def handleAction (outcome : FaultOutcome) (manager : Manager) (page : ByteMem) : Option Handled :=
  match FhAction.ofCode (page.get FaultData.action) with
  | some .setup => some (0, manager, page)
  | some .teardown => some (0, manager, page)
  | some .ping => some (handlePing manager page)
  | some .getEmptyMappings => some (handleEmptyMappings manager page)
  | some .verifyMapping => some (handleVerifyMapping manager page)
  | some .openDevice => some (handleOpen outcome manager page)
  | some .closeDevice => some (handleClose outcome manager page)
  | some .mmap => handleMmap outcome manager page
  | some .unmap => handleUnmap outcome manager page
  | some .dma => doDma outcome manager page
  | some .transferEscapeData => doActionTransferEscapeData outcome manager page
  -- every other code is unknown to the handler, which only complains about it
  | _ => some (0, manager, page)

def onFault (outcome : FaultOutcome) (manager : Manager) (page : ByteMem) : Option Handled :=
  if page.get FaultData.turn ≠ FhTurn.host.code then some (0, manager, page)
  else
    match handleAction outcome manager page with
    | none => none
    | some (ret, manager', page') =>
        if ret < 0 then some (ret, manager', page')
        else some (0, manager', page'.set FaultData.turn FhTurn.guest.code)

end Acai
