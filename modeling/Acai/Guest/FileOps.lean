import Acai.Guest.PinPages
import Acai.Guest.Transfer

/-!
# The guest's file operations

This file models the file operations of the stub driver in the guest: each fills
in a request on the escape page, escapes to the host and reads the reply. They
are programs over the page, so that the lock, every store and every load stand in
the order of the source.

Two operations work on the page without taking `faultdata_lock`: `fh_bridge_mmap`
and `fh_char_ctrl_ioctl`. `fh_char_ctrl_write` takes the lock a second time where
it should release it, and so never returns.

The kernel's own part of an operation (allocations, copies to user space, the
remapping of pages) enters as data of the operation.
-/

namespace Acai

/--
The check of a reply that the operations share: an escape that failed ends the
operation with the error of the escape, and a negative `common.ret` ends it with
`common.err_no`.
-/
def escapeChecked {α : Type} (action : FhAction) (fail : ℤ → α) (success : Prog α) : Prog α := do
  let ret ← fhDoFaulthook action
  if ret < 0 then pure (fail ret)
  else
    let hostRet ← Prog.loadInt ActionCommon.ret
    if hostRet < 0 then
      let errNo ← Prog.loadInt ActionCommon.errNo
      pure (fail errNo)
    else success

structure OpenArgs where
  infoAlloc : Bool
  name : List UInt8
  flags : ℕ

def devPrefix : List UInt8 := [0x2f, 0x64, 0x65, 0x76, 0x2f, 0]

/-- `fh_char_open`: its result, and the descriptor that it stores in the private data. -/
def fhCharOpen (args : OpenArgs) : Prog (ℤ × Option ℤ) :=
  if !args.infoAlloc then pure (-Errno.ENOMEM.code, none)
  else do
    Prog.acquire
    Prog.storeBytes ActionOpenclose.device devPrefix
    -- the second copy goes to where the device field ends by now
    let length ← Prog.strlen ActionOpenclose.device ActionOpenclose.deviceSize
    Prog.storeBytes (ActionOpenclose.device + length) (args.name ++ [0])
    Prog.storeField ActionOpenclose.flags args.flags
    let result ← escapeChecked .openDevice (fun error => (error, none)) do
      let fd ← Prog.loadInt ActionCommon.fd
      pure (0, some fd)
    Prog.release
    pure result

def fhCharClose (fd : ℤ) : Prog ℤ := do
  Prog.acquire
  Prog.storeInt ActionCommon.fd fd
  let ret ← escapeChecked .closeDevice id (pure 0)
  Prog.release
  pure ret

structure CtrlArgs where
  fd : ℤ
  pos : ℤ
  count : ℕ
  /-- The result of the copy between the page and user space. -/
  copyRet : ℤ

def fhCharCtrlRead (args : CtrlArgs) : Prog (ℤ × Option ℕ) := do
  Prog.acquire
  Prog.storeInt ActionCommon.fd args.fd
  Prog.storeInt ActionReadWrite.offset args.pos
  Prog.storeField ActionReadWrite.count args.count
  -- the result of the escape itself is not looked at
  let _ ← fhDoFaulthook .read
  let ret ← Prog.loadInt ActionCommon.ret
  if ret < 0 then
    Prog.release
    pure (ret, none)
  else
    -- the arguments of `copy_to_user`
    let _ ← Prog.loadField ActionReadWrite.buffer
    let _ ← Prog.loadInt ActionReadWrite.bufferSize
    if args.copyRet < 0 then
      Prog.release
      pure (args.copyRet, none)
    else
      let count ← Prog.loadField ActionReadWrite.count
      let bufferSize ← Prog.loadInt ActionReadWrite.bufferSize
      Prog.release
      pure (bufferSize, some count)

/-- The end of `fh_char_ctrl_write`, which takes the lock once more instead of releasing it. -/
def ctrlWriteCleanUp (ret : ℤ) : Prog ℤ := do
  Prog.acquire
  pure ret

def fhCharCtrlWrite (args : CtrlArgs) : Prog ℤ := do
  Prog.acquire
  Prog.storeInt ActionCommon.fd args.fd
  Prog.storeInt ActionReadWrite.offset args.pos
  Prog.storeField ActionReadWrite.count 4
  -- the arguments of `copy_to_user`
  let _ ← Prog.loadField ActionReadWrite.buffer
  let _ ← Prog.loadField ActionReadWrite.count
  if args.copyRet ≠ 0 then ctrlWriteCleanUp args.copyRet
  else
    let _ ← fhDoFaulthook .write
    let ret ← Prog.loadInt ActionCommon.ret
    if ret < 0 then ctrlWriteCleanUp ret
    else
      -- `*pos` is advanced by the count on the page
      let _ ← Prog.loadField ActionReadWrite.count
      let bufferSize ← Prog.loadInt ActionReadWrite.bufferSize
      ctrlWriteCleanUp bufferSize

/-- `fh_char_ctrl_ioctl`, which fills in a request and does not escape. -/
def fhCharCtrlIoctl (fd : ℤ) (cmd arg : ℕ) : Prog ℤ := do
  Prog.storeInt ActionCommon.fd fd
  Prog.storeField ActionIoctl.cmd cmd
  Prog.storeField ActionIoctl.arg arg
  pure 0

structure MmapArgs where
  fd : ℤ
  vmStart : UInt64
  vmEnd : UInt64
  vmPgoff : UInt64
  vmFlags : UInt64
  vmPageProt : UInt64
  infoAlloc : Bool
  /-- The frame of the pages for the mapping, if they could be allocated. -/
  pfnStart : Option UInt64
  remapRet : ℤ

namespace MmapArgs

def size (args : MmapArgs) : ℤ :=
  Int.bmod ((args.vmEnd.toNat : ℤ) - args.vmStart.toNat) (2 ^ 64)

def addedFlags : UInt64 := 0x4044000

end MmapArgs

/-- The loop that writes the page frame numbers, unrolled `fuel` times. Its bound is read from the
page. -/
def mmapPfnLoop (pfnStart : ℕ) : ℕ → ℕ → Prog Unit
  | 0, _ => .diverge
  | fuel + 1, index => do
      let pfnSize ← Prog.loadField ActionMmapDevice.pfnSize
      if index < pfnSize then
        Prog.storeField (ActionMmapDevice.pfn index) (pfnStart + index * pageSize)
        mmapPfnLoop pfnStart fuel (index + 1)
      else pure ()

/-- `fh_bridge_mmap`, with its loop unrolled `fuel` times. It does not take the lock. -/
def fhBridgeMmap (fuel : ℕ) (args : MmapArgs) : Prog ℤ :=
  if !args.infoAlloc then pure (-Errno.ENOMEM.code)
  else if args.size ≤ 0 then pure (-Errno.EINVAL.code)
  else
    match args.pfnStart with
    | none => pure (-Errno.ENOMEM.code)
    | some pfnStart => do
        Prog.storeBytes FaultData.data (List.replicate ActionMmapDevice.size 0)
        Prog.storeInt ActionCommon.fd args.fd
        Prog.storeField ActionMmapDevice.vmStart args.vmStart.toNat
        Prog.storeField ActionMmapDevice.vmEnd args.vmEnd.toNat
        Prog.storeField ActionMmapDevice.vmPgoff args.vmPgoff.toNat
        Prog.storeField ActionMmapDevice.vmFlags (args.vmFlags ||| MmapArgs.addedFlags).toNat
        Prog.storeField ActionMmapDevice.vmPageProt args.vmPageProt.toNat
        Prog.storeField ActionMmapDevice.pfnSize (args.size.toNat / pageSize)
        mmapPfnLoop pfnStart.toNat fuel 0
        escapeChecked .mmap id (pure (if args.remapRet ≠ 0 then args.remapRet else 0))

structure SgdmaArgs where
  fd : ℤ
  buf : UInt64
  count : UInt64
  phyAddr : ℤ
  doWrite : Bool
  doAperture : Bool
  kernel : PinKernel
  escapeSize : ℕ

def chunkBytes (chunks : List PageChunk) : List UInt8 := chunks.flatMap PageChunk.toBytes

def dmaEscape (args : SgdmaArgs) (pinned : PinPages) : Prog ℤ := do
  Prog.storeInt ActionDma.doWrite (if args.doWrite then 1 else 0)
  Prog.storeInt ActionCommon.fd args.fd
  Prog.storeInt ActionDma.phyAddr args.phyAddr
  Prog.storeField ActionDma.len pinned.len
  Prog.storeInt ActionDma.doAperture (if args.doAperture then 1 else 0)
  Prog.storeField ActionDma.pagesNr pinned.pagesNr
  Prog.storeField ActionDma.userBuf args.buf.toNat
  escapeChecked .dma id do
    let ret ← Prog.loadInt ActionCommon.ret
    pure (i32 ret)

/-- The part of `char_sgdma_read_write` that holds the lock. The outcome of the simulated PCI
access before it is ignored. -/
def sgdmaLocked (fuel : ℕ) (args : SgdmaArgs) (pinned : PinPages) : Prog ℤ := do
  Prog.acquire
  let sent ← transferChunkToHost fuel (chunkBytes pinned.pageChunks)
    (Int32.ofInt FhAction.dma.code)
  let ret ← if sent < 0 then pure sent else dmaEscape args pinned
  Prog.release
  pure ret

def charSgdmaReadWrite (fuel : ℕ) (args : SgdmaArgs) : Prog ℤ :=
  match fhPinPages args.kernel args.buf.toNat args.count.toNat with
  | .error ret => pure ret
  | .ok pinned =>
      if args.escapeSize < ActionDma.size + pinned.pagesNr * PageChunk.size then
        pure (-Errno.ENOMEM.code)
      else sgdmaLocked fuel args pinned

/-! ## The requests on the page -/

def openPage (args : OpenArgs) (base : ByteMem) : ByteMem :=
  ((base.writeBytes ActionOpenclose.device devPrefix).writeBytes
    (ActionOpenclose.device + 5) (args.name ++ [0])).set ActionOpenclose.flags args.flags

def ctrlPage (args : CtrlArgs) (count : ℕ) (base : ByteMem) : ByteMem :=
  ((base.setInt ActionCommon.fd args.fd).setInt ActionReadWrite.offset args.pos).set
    ActionReadWrite.count count

def pfnPage (pfnStart : ℕ) : ℕ → ByteMem → ByteMem
  | 0, base => base
  | count + 1, base =>
      (pfnPage pfnStart count base).set (ActionMmapDevice.pfn count) (pfnStart + count * pageSize)

theorem get_pfnPage {field : Field} (pfnStart count : ℕ) (base : ByteMem)
    (fixed : field.offset + field.width ≤ FaultData.data + ActionMmapDevice.size) :
    (pfnPage pfnStart count base).get field = base.get field := by
  induction count with
  | zero => rfl
  | succ count ih =>
      have disjoint : (ActionMmapDevice.pfn count).Disjoint field := by
        right
        simp only [ActionMmapDevice.pfn, ActionMmapDevice.size, dataField] at fixed ⊢
        omega
      rw [pfnPage, ByteMem.get_set_of_disjoint disjoint, ih]

def mmapPage (args : MmapArgs) (base : ByteMem) : ByteMem :=
  (((((((base.writeBytes FaultData.data (List.replicate ActionMmapDevice.size 0)).setInt
    ActionCommon.fd args.fd).set
    ActionMmapDevice.vmStart args.vmStart.toNat).set
    ActionMmapDevice.vmEnd args.vmEnd.toNat).set
    ActionMmapDevice.vmPgoff args.vmPgoff.toNat).set
    ActionMmapDevice.vmFlags (args.vmFlags ||| MmapArgs.addedFlags).toNat).set
    ActionMmapDevice.vmPageProt args.vmPageProt.toNat).set
    ActionMmapDevice.pfnSize (args.size.toNat / pageSize)

theorem strlen_devPrefix (base : ByteMem) :
    (((base.writeBytes ActionOpenclose.device devPrefix).readBytes ActionOpenclose.device
      ActionOpenclose.deviceSize).takeWhile (· ≠ 0)).length = 5 := by
  have stored := ByteMem.readBytes_writeBytes_same base ActionOpenclose.device devPrefix
  rw [show ActionOpenclose.deviceSize = devPrefix.length + 122 from rfl, ByteMem.readBytes_add,
    stored]
  rfl

def dmaRequestPage (args : SgdmaArgs) (pinned : PinPages) (page : ByteMem) : ByteMem :=
  ((((((page.setInt ActionDma.doWrite (if args.doWrite then 1 else 0)).setInt
    ActionCommon.fd args.fd).setInt
    ActionDma.phyAddr args.phyAddr).set
    ActionDma.len pinned.len).setInt
    ActionDma.doAperture (if args.doAperture then 1 else 0)).set
    ActionDma.pagesNr pinned.pagesNr).set
    ActionDma.userBuf args.buf.toNat

theorem run_dmaEscape {σ : Type} (answer : σ → ByteMem → σ × ByteMem) (args : SgdmaArgs)
    (pinned : PinPages) (machine : Machine σ) :
    (dmaEscape args pinned).run answer machine =
      (escapeChecked .dma id do
        let ret ← Prog.loadInt ActionCommon.ret
        pure (i32 ret)).run answer
          { machine with page := dmaRequestPage args pinned machine.page } := by
  simp only [dmaEscape, Prog.run_bind, Prog.run_storeInt, Prog.run_storeField, Prog.andThen_done,
    dmaRequestPage]

theorem run_mmapPfnLoop {σ : Type} (answer : σ → ByteMem → σ × ByteMem) (machine : Machine σ)
    (pfnStart index : ℕ) :
    ∃ page, ∀ fuel, machine.page.get ActionMmapDevice.pfnSize - index < fuel →
      (mmapPfnLoop pfnStart fuel index).run answer machine =
        (.done (), { machine with page := page }) := by
  obtain ⟨rest, rest_eq⟩ : ∃ rest, rest = machine.page.get ActionMmapDevice.pfnSize - index :=
    ⟨_, rfl⟩
  induction rest generalizing index machine with
  | zero =>
      refine ⟨machine.page, ?_⟩
      intro fuel enough
      rcases Nat.exists_eq_add_one_of_ne_zero (show fuel ≠ 0 by omega) with ⟨fuel, rfl⟩
      rw [mmapPfnLoop, Prog.run_bind_of_done _ (Prog.run_loadField _ _ _), if_neg (by omega),
        Prog.run_pure]
  | succ rest ih =>
      have disjoint : (ActionMmapDevice.pfn index).Disjoint ActionMmapDevice.pfnSize := by
        right
        simp only [ActionMmapDevice.pfn, ActionMmapDevice.pfnSize, dataField]
        omega
      obtain ⟨stored, stored_eq⟩ : ∃ stored, stored = machine.page.set
        (ActionMmapDevice.pfn index) (pfnStart + index * pageSize) := ⟨_, rfl⟩
      have kept : stored.get ActionMmapDevice.pfnSize =
          machine.page.get ActionMmapDevice.pfnSize := by
        rw [stored_eq]
        exact ByteMem.get_set_of_disjoint disjoint
      obtain ⟨page, looped⟩ := ih { machine with page := stored } (index + 1)
        (by simp only [kept]; omega)
      refine ⟨page, ?_⟩
      intro fuel enough
      rcases Nat.exists_eq_add_one_of_ne_zero (show fuel ≠ 0 by omega) with ⟨fuel, rfl⟩
      rw [mmapPfnLoop, Prog.run_bind_of_done _ (Prog.run_loadField _ _ _), if_pos (by omega),
        Prog.run_bind_of_done _ (Prog.run_storeField _ _ _ _), ← stored_eq,
        looped fuel (by simp only [kept]; omega)]

theorem length_chunkBytes (chunks : List PageChunk) :
    (chunkBytes chunks).length = PageChunk.size * chunks.length := by
  induction chunks with
  | nil => rfl
  | cons chunk chunks ih =>
      simp only [chunkBytes, List.flatMap_cons, List.length_append, PageChunk.length_toBytes,
        List.length_cons] at ih ⊢
      rw [ih]
      ring

/-- A file operation of the guest, with its arguments. -/
inductive FileOp where
  | charOpen (args : OpenArgs)
  | charClose (fd : ℤ)
  | ctrlRead (args : CtrlArgs)
  | ctrlWrite (args : CtrlArgs)
  | ctrlIoctl (fd : ℤ) (cmd arg : ℕ)
  | bridgeMmap (args : MmapArgs)
  | sgdmaReadWrite (args : SgdmaArgs)

def FileOp.program (fuel : ℕ) : FileOp → Prog ℤ
  | charOpen args => Prod.fst <$> fhCharOpen args
  | charClose fd => fhCharClose fd
  | ctrlRead args => Prod.fst <$> fhCharCtrlRead args
  | ctrlWrite args => fhCharCtrlWrite args
  | ctrlIoctl fd cmd arg => fhCharCtrlIoctl fd cmd arg
  | bridgeMmap args => fhBridgeMmap fuel args
  | sgdmaReadWrite args => charSgdmaReadWrite fuel args

end Acai
