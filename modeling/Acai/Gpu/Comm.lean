import Acai.Manager.AddrMap

/-!
# The GPU manager's fault handler

This file models `gpu_comm.c`: the handler `on_fault` of the GPU manager with its
table of device handles, the dispatch of the gdev calls that a guest asks for,
and the copies between the target process and the buffers handed to the device.
The layout is the one of the GPU manager's `fh_def.h`.

The device library is outside of the model. Its handles are values of an
arbitrary type, a null handle is `none`, and what its calls return comes from the
outcome of the fault (`GpuOutcome`). Every call is recorded with the handle that
it was given (`GdevCall`), every store to the handle table with its index, and
every allocation with the buffer that it was made for. The table goes on behind
its last slot, as the memory of the process does.

Of the benchmark times that the handlers collect and print nothing is modelled.
-/

namespace Acai

/-! ## Layout -/

namespace FhActionCommon

def flags : Field := ⟨32, 8⟩
def fd : Field := ⟨40, 4⟩
def errNo : Field := ⟨44, 4⟩
def ret : Field := ⟨48, 8⟩

end FhActionCommon

namespace FhActionSetup

def bufferLimit : Field := ⟨56, 8⟩

end FhActionSetup

namespace FhGdevIoctl

def gdevCommand : Field := ⟨56, 8⟩

-- The requests of the commands are a union over the payload.
def payload : ℕ := 64

def tuneType : Field := ⟨payload, 4⟩
def tuneValue : Field := ⟨payload + 4, 4⟩

def queryType : Field := ⟨payload, 4⟩
def queryResult : Field := ⟨payload + 8, 8⟩

def memAddr : Field := ⟨payload, 8⟩
def memSize : Field := ⟨payload + 8, 8⟩

def physAddr : Field := ⟨payload, 8⟩
def physPhys : Field := ⟨payload + 8, 8⟩

def dmaSrcAddr : Field := ⟨payload + 16, 8⟩
def dmaDstAddr : Field := ⟨payload + 24, 8⟩
def dmaSize : Field := ⟨payload + 32, 8⟩
def bufPfnNum : Field := ⟨payload + 48, 8⟩
def bufPfn (index : ℕ) : Field := ⟨payload + 56 + 8 * index, 8⟩

def launchId : Field := ⟨payload + 16, 4⟩
def launchKernel : ℕ := payload + 24
def launchParamSize : Field := ⟨payload + 664, 4⟩
def launchParam : ℕ := payload + 672

def syncId : Field := ⟨payload, 4⟩
def syncTimeoutSec : Field := ⟨payload + 8, 8⟩
def syncTimeoutUsec : Field := ⟨payload + 16, 8⟩
def syncTimeoutNeg : Field := ⟨payload + 24, 4⟩
def syncHasTimeout : Field := ⟨payload + 32, 1⟩

end FhGdevIoctl

def gdevKernelSize : ℕ := 640

/-- The actions that the GPU manager serves (`enum fh_action`). -/
inductive GpuAction where
  | openDevice
  | closeDevice
  | ping
  | setup
  | teardown
  | ioctl
  deriving DecidableEq

def GpuAction.code : GpuAction → ℕ
  | openDevice => 11
  | closeDevice => 12
  | ping => 17
  | setup => 21
  | teardown => 22
  | ioctl => 31

def GpuAction.ofCode : ℕ → Option GpuAction
  | 11 => some openDevice
  | 12 => some closeDevice
  | 17 => some ping
  | 21 => some setup
  | 22 => some teardown
  | 31 => some ioctl
  | _ => none

/-- The commands that `gpu_ioctl` serves (`GDEV_IOCTL_*`). -/
inductive GdevCommand where
  | gmalloc
  | gfree
  | gmemcpyToDevice
  | gmemcpyFromDevice
  | glaunch
  | gsync
  | gbarrier
  | gquery
  | gtune
  | gvirtget
  deriving DecidableEq

def GdevCommand.ofCode : ℕ → Option GdevCommand
  | 0x100 => some gmalloc
  | 0x101 => some gfree
  | 0x106 => some gmemcpyToDevice
  | 0x108 => some gmemcpyFromDevice
  | 0x112 => some glaunch
  | 0x113 => some gsync
  | 0x114 => some gbarrier
  | 0x115 => some gquery
  | 0x116 => some gtune
  | 0x124 => some gvirtget
  | _ => none

/-! ## State -/

structure GdevTime where
  sec : ℕ
  usec : ℕ
  neg : ℤ
  deriving DecidableEq

/-- A call of the gdev library, with the handle, its arguments and its result. -/
inductive GdevCall (Handle : Type*) where
  | gopen (minor : ℤ) (ret : Option Handle)
  | gclose (handle : Handle) (ret : ℤ)
  | gmalloc (handle : Handle) (size : ℕ) (addr : ℕ)
  | gfree (handle : Handle) (addr : ℕ) (size : ℕ)
  | gmemcpyToDevice (handle : Handle) (dstAddr : ℕ) (srcBuf : List UInt8) (ret : ℤ)
  | gmemcpyFromDevice (handle : Handle) (srcAddr : ℕ) (size : ℕ) (ret : ℤ)
  | glaunch (handle : Handle) (kernel paramBuf : List UInt8) (id : ℕ) (ret : ℤ)
  | gsync (handle : Handle) (id : ℕ) (timeout : Option GdevTime) (ret : ℤ)
  | gbarrier (handle : Handle) (ret : ℤ)
  | gquery (handle : Handle) (type : ℕ) (result : ℕ) (ret : ℤ)
  | gtune (handle : Handle) (type : ℕ) (value : ℕ) (ret : ℤ)
  | gvirtget (handle : Handle) (addr : ℕ) (phys : ℕ)

/-- The heap buffers of the handlers, by the variable that receives them. -/
inductive GpuBuffer where
  | fromDeviceDmaBuf
  | dmaBuf
  | kernel
  | paramBuf
  deriving DecidableEq

inductive HeapEvent where
  | malloc (buffer : GpuBuffer) (size : ℕ)
  | free (buffer : GpuBuffer)
  deriving DecidableEq

/-- How the calls of one fault end. -/
structure GpuOutcome (Handle : Type*) where
  gopen : Option Handle
  /-- What `gclose` of a handle returns. -/
  gclose : Handle → Int32
  /-- What the other calls of the library return. -/
  gdevRet : Int32
  /-- The result of `gmalloc`, `gfree`, `gvirtget` and `gquery`. -/
  gdevResult : UInt64
  launchId : UInt32
  /-- The bytes that `gmemcpy_from_device` leaves in its buffer. -/
  deviceBytes : ByteMem
  /-- The block that `malloc` hands out for a buffer, with its old contents. -/
  malloc : GpuBuffer → Option ByteMem
  /-- What the read or the write of the page at an index of the page list returns. -/
  copied : ℕ → Int64

/-- One fault of the guest: what it has left in the escape page and in the target's memory. -/
structure GpuFault (Handle : Type*) where
  page : ByteMem
  target : ByteMem
  outcome : GpuOutcome Handle

structure GpuManager (Handle : Type*) where
  gdevHandles : ℤ → Option Handle
  gdevHandleI : ℤ
  page : ByteMem
  target : ByteMem
  stores : List ℤ
  calls : List (GdevCall Handle)
  heap : List HeapEvent

def gdevHandlesMax : ℕ := 2048

namespace GpuManager

variable {Handle : Type*}

/-- The manager when it starts: the globals are zero. -/
def initial : GpuManager Handle where
  gdevHandles := fun _ => none
  gdevHandleI := 0
  page := ByteMem.zero
  target := ByteMem.zero
  stores := []
  calls := []
  heap := []

/-- The assignment `gdev_handles[index] = handle`. -/
def storeHandle (manager : GpuManager Handle) (index : ℤ) (handle : Option Handle) :
    GpuManager Handle :=
  { manager with
    gdevHandles := Function.update manager.gdevHandles index handle
    stores := manager.stores ++ [index] }

def addCall (manager : GpuManager Handle) (call : GdevCall Handle) : GpuManager Handle :=
  { manager with calls := manager.calls ++ [call] }

def addHeap (manager : GpuManager Handle) (events : List HeapEvent) : GpuManager Handle :=
  { manager with heap := manager.heap ++ events }

def setPage (manager : GpuManager Handle) (page : ByteMem) : GpuManager Handle :=
  { manager with page := page }

/-- `set_ret_and_err_no_direct` -/
def setRetAndErrNoDirect (manager : GpuManager Handle) (ret : ℤ) : GpuManager Handle :=
  manager.setPage
    ((manager.page.setInt FhActionCommon.ret ret).setInt FhActionCommon.errNo ret)

/-- `util__get_gdev_handle` -/
def utilGetGdevHandle (manager : GpuManager Handle) (index : ℤ) : Option Handle :=
  if index < 0 ∨ manager.gdevHandleI ≤ index then none else manager.gdevHandles index

end GpuManager

/-! ## Copies between the target and the device buffers -/

section Target

variable {Handle : Type*} (ctx : CtxStruct) (outcome : GpuOutcome Handle)

/-- Bytes that a system call has moved when it was asked for `size` and returned `ret`. -/
def bytesMoved (ret : Int64) (size : ℕ) : ℕ := min ret.toInt.toNat size

/--
The loop of `util__copy_to_from_target` over `count` entries of the page list. The
result is zero or the error, and what the loop leaves in the buffer it reads to
and in the target.
-/
def copyLoop (toTarget : Bool) (nbytesTot : ℕ) (pfnBuf : ℕ → ℕ) (toDeviceDmaBuf : ByteMem) :
    ℕ → ℕ → ℕ → ByteMem → ByteMem → ℤ × ByteMem × ByteMem
  | 0, _, _, buffer, target => (0, buffer, target)
  | count + 1, index, nbytesCopied, buffer, target =>
      let nbytesPerPage := min (nbytesTot - nbytesCopied) pageSize
      let vaddrFvp := (getAddrMapVaddr ctx (pfnBuf index)).toNat
      let ret := outcome.copied index
      let moved := bytesMoved ret nbytesPerPage
      let buffer' :=
        if toTarget then buffer
        else buffer.writeBytes nbytesCopied (target.readBytes vaddrFvp moved)
      let target' :=
        if toTarget then
          target.writeBytes vaddrFvp (toDeviceDmaBuf.readBytes nbytesCopied moved)
        else target
      -- the comparison with the page's bytes is unsigned: an error passes it
      if ret.toUInt64.toNat < nbytesPerPage then (-Errno.ENOMEM.code, buffer', target')
      else if ret.toInt < 0 then (ret.toInt, buffer', target')
      else
        copyLoop toTarget nbytesTot pfnBuf toDeviceDmaBuf count (index + 1)
          (nbytesCopied + nbytesPerPage) buffer' target'

/-- `util__copy_to_from_target`; the second component is the buffer it hands to the caller. -/
def utilCopyToFromTarget (toTarget : Bool) (nbytesTot : ℕ) (pfnBuf : ℕ → ℕ) (pfnNum : ℕ)
    (toDeviceDmaBuf : ByteMem) (manager : GpuManager Handle) :
    ℤ × Option ByteMem × GpuManager Handle :=
  match outcome.malloc .fromDeviceDmaBuf with
  | none => (-Errno.ENOMEM.code, none, manager)
  | some fromDeviceDmaBuf =>
      let allocated := manager.addHeap [.malloc .fromDeviceDmaBuf nbytesTot]
      let (ret, buffer, target) :=
        copyLoop ctx outcome toTarget nbytesTot pfnBuf toDeviceDmaBuf pfnNum 0 0
          fromDeviceDmaBuf manager.target
      let copied := { allocated with target := target }
      if ret < 0 then (ret, none, if toTarget then copied.addHeap [.free .dmaBuf] else copied)
      else (0, if toTarget then none else some buffer, copied)

def utilCopyFromTarget (nbytesTot : ℕ) (pfnBuf : ℕ → ℕ) (pfnNum : ℕ)
    (manager : GpuManager Handle) : ℤ × Option ByteMem × GpuManager Handle :=
  utilCopyToFromTarget ctx outcome false nbytesTot pfnBuf pfnNum ByteMem.zero manager

def utilCopyToTarget (nbytesTot : ℕ) (pfnBuf : ℕ → ℕ) (pfnNum : ℕ) (dmaBuf : ByteMem)
    (manager : GpuManager Handle) : ℤ × Option ByteMem × GpuManager Handle :=
  utilCopyToFromTarget ctx outcome true nbytesTot pfnBuf pfnNum dmaBuf manager

end Target

/-! ## The gdev commands -/

section Ioctl

variable {Handle : Type*} (ctx : CtxStruct) (outcome : GpuOutcome Handle) (handle : Handle)
  (manager : GpuManager Handle)

def gpuIoctlGmemcpyToDev : ℤ × GpuManager Handle :=
  let page := manager.page
  let nbytesTot := page.get FhGdevIoctl.dmaSize
  match utilCopyFromTarget ctx outcome nbytesTot (fun index => page.get (FhGdevIoctl.bufPfn index))
      (page.get FhGdevIoctl.bufPfnNum) manager with
  -- the caller's pointer is still null where the copy has failed
  | (ret, none, copied) => (ret, copied)
  | (_, some targetBuf, copied) =>
      let ret := outcome.gdevRet.toInt
      let call := GdevCall.gmemcpyToDevice handle (page.get FhGdevIoctl.dmaDstAddr)
        (targetBuf.readBytes 0 nbytesTot) ret
      (ret, (copied.addCall call).addHeap [.free .fromDeviceDmaBuf])

def gpuIoctlGmemcpyFromDev : ℤ × GpuManager Handle :=
  let page := manager.page
  let nbytesTot := page.get FhGdevIoctl.dmaSize
  match outcome.malloc .dmaBuf with
  | none => (-Errno.ENOMEM.code, manager)
  | some _ =>
      let ret := outcome.gdevRet.toInt
      let called :=
        (manager.addHeap [.malloc .dmaBuf nbytesTot]).addCall
          (.gmemcpyFromDevice handle (page.get FhGdevIoctl.dmaSrcAddr) nbytesTot ret)
      if ret < 0 then (ret, called.addHeap [.free .dmaBuf])
      else
        let (copyRet, _, copied) :=
          utilCopyToTarget ctx outcome nbytesTot
            (fun index => page.get (FhGdevIoctl.bufPfn index)) (page.get FhGdevIoctl.bufPfnNum)
            outcome.deviceBytes called
        (if copyRet < 0 then copyRet else 0, copied.addHeap [.free .dmaBuf])

/-- `gpu__ioctl_launch`. The recorded kernel is the guest's; the manager lets its parameter and
name pointers refer to its own copies before the call. -/
def gpuIoctlLaunch : ℤ × GpuManager Handle :=
  let page := manager.page
  let paramBufSize := page.get FhGdevIoctl.launchParamSize
  let kernel := outcome.malloc .kernel
  let paramBuf := outcome.malloc .paramBuf
  let allocated := manager.addHeap
    ((if kernel.isSome then [.malloc .kernel gdevKernelSize] else []) ++
      if paramBuf.isSome then [.malloc .paramBuf paramBufSize] else [])
  if kernel = none ∨ paramBuf = none then (-Errno.ENOMEM.code, allocated)
  else
    let ret := outcome.gdevRet.toInt
    let call := GdevCall.glaunch handle (page.readBytes FhGdevIoctl.launchKernel gdevKernelSize)
      (page.readBytes FhGdevIoctl.launchParam paramBufSize) outcome.launchId.toNat ret
    (ret, ((allocated.addCall call).setPage
      (page.set FhGdevIoctl.launchId outcome.launchId.toNat)).addHeap
        [.free .kernel, .free .paramBuf])

def gpuIoctlTune : ℤ × GpuManager Handle :=
  let ret := outcome.gdevRet.toInt
  (ret, manager.addCall (.gtune handle (manager.page.get FhGdevIoctl.tuneType)
    (manager.page.get FhGdevIoctl.tuneValue) ret))

def gpuIoctlQuery : ℤ × GpuManager Handle :=
  let ret := outcome.gdevRet.toInt
  let result := outcome.gdevResult.toNat
  let type := manager.page.get FhGdevIoctl.queryType
  (ret, (manager.addCall (.gquery handle type result ret)).setPage
    (manager.page.set FhGdevIoctl.queryResult result))

def gpuIoctlMemalloc : ℤ × GpuManager Handle :=
  let addr := outcome.gdevResult.toNat
  (0, (manager.addCall (.gmalloc handle (manager.page.get FhGdevIoctl.memSize) addr)).setPage
    (manager.page.set FhGdevIoctl.memAddr addr))

def gpuIoctlFree : ℤ × GpuManager Handle :=
  let size := outcome.gdevResult.toNat
  (0, (manager.addCall (.gfree handle (manager.page.get FhGdevIoctl.memAddr) size)).setPage
    (manager.page.set FhGdevIoctl.memSize size))

def gpuIoctlVirtget : ℤ × GpuManager Handle :=
  let phys := outcome.gdevResult.toNat
  (0, (manager.addCall (.gvirtget handle (manager.page.get FhGdevIoctl.physAddr) phys)).setPage
    (manager.page.set FhGdevIoctl.physPhys phys))

def gpuIoctlSync : ℤ × GpuManager Handle :=
  let page := manager.page
  let timeout :=
    if page.get FhGdevIoctl.syncHasTimeout ≠ 0 then
      some
        { sec := page.get FhGdevIoctl.syncTimeoutSec
          usec := page.get FhGdevIoctl.syncTimeoutUsec
          neg := page.getInt FhGdevIoctl.syncTimeoutNeg : GdevTime }
    else none
  let ret := outcome.gdevRet.toInt
  (ret, manager.addCall (.gsync handle (page.get FhGdevIoctl.syncId) timeout ret))

def gpuIoctlBarrier : ℤ × GpuManager Handle :=
  let ret := outcome.gdevRet.toInt
  (ret, manager.addCall (.gbarrier handle ret))

/-- The switch of `gpu_ioctl`. -/
def gpuIoctlCommand : Option GdevCommand → ℤ × GpuManager Handle
  | some .gtune => gpuIoctlTune outcome handle manager
  | some .gquery => gpuIoctlQuery outcome handle manager
  | some .gmalloc => gpuIoctlMemalloc outcome handle manager
  | some .gfree => gpuIoctlFree outcome handle manager
  | some .gvirtget => gpuIoctlVirtget outcome handle manager
  | some .gmemcpyToDevice => gpuIoctlGmemcpyToDev ctx outcome handle manager
  | some .gmemcpyFromDevice => gpuIoctlGmemcpyFromDev ctx outcome handle manager
  | some .glaunch => gpuIoctlLaunch outcome handle manager
  | some .gsync => gpuIoctlSync outcome handle manager
  | some .gbarrier => gpuIoctlBarrier outcome handle manager
  | none => (-Errno.EINVAL.code, manager)

/-- `gpu_ioctl` with the handle that its descriptor names. -/
def gpuIoctlHandle : Option Handle → ℤ × GpuManager Handle
  | none => (-Errno.EINVAL.code, manager)
  | some handle =>
      gpuIoctlCommand ctx outcome handle manager
        (GdevCommand.ofCode (manager.page.get FhGdevIoctl.gdevCommand))

def gpuIoctl : ℤ × GpuManager Handle :=
  gpuIoctlHandle ctx outcome manager
    (manager.utilGetGdevHandle (manager.page.getInt FhActionCommon.fd))

end Ioctl

/-! ## The faults -/

section Faults

variable {Handle : Type*} (ctx : CtxStruct) (outcome : GpuOutcome Handle)

/-- The loop of `fault__setup` over `count` slots from `index` on. -/
def setupLoop : ℕ → ℕ → GpuManager Handle → GpuManager Handle
  | 0, _, manager => manager
  | count + 1, index, manager => setupLoop count (index + 1) (manager.storeHandle index none)

def faultSetup (manager : GpuManager Handle) : GpuManager Handle :=
  let cleared := { setupLoop gdevHandlesMax 0 manager with gdevHandleI := 0 }
  (cleared.setPage
    (cleared.page.set FhActionSetup.bufferLimit escapePageSize)).setRetAndErrNoDirect 0

/-- The loop of `fault__teardown` over `count` slots from `index` on. -/
def teardownLoop : ℕ → ℕ → GpuManager Handle → GpuManager Handle
  | 0, _, manager => manager
  | count + 1, index, manager =>
      let closed :=
        match manager.gdevHandles index with
        | none => manager
        | some handle =>
            (manager.addCall (.gclose handle (outcome.gclose handle).toInt)).storeHandle index none
      teardownLoop count (index + 1) { closed with gdevHandleI := 0 }

def faultTeardown (manager : GpuManager Handle) : GpuManager Handle :=
  teardownLoop outcome gdevHandlesMax 0 manager

def faultOpenDev (manager : GpuManager Handle) : GpuManager Handle :=
  let opened := manager.addCall (.gopen 0 outcome.gopen)
  match outcome.gopen with
  | none => opened.setRetAndErrNoDirect (-Errno.EINVAL.code)
  | some handle =>
      let stored :=
        (opened.setPage (opened.page.setInt FhActionCommon.fd opened.gdevHandleI)).storeHandle
          opened.gdevHandleI (some handle)
      GpuManager.setRetAndErrNoDirect { stored with gdevHandleI := i32 (stored.gdevHandleI + 1) } 0

/-- `fault__close_dev` with the handle that the descriptor names. -/
def faultCloseHandle (manager : GpuManager Handle) (fd : ℤ) : Option Handle → GpuManager Handle
  | none => manager.setRetAndErrNoDirect (-Errno.EINVAL.code)
  | some handle =>
      let ret := (outcome.gclose handle).toInt
      ((manager.addCall (.gclose handle ret)).storeHandle fd none).setRetAndErrNoDirect ret

def faultCloseDev (manager : GpuManager Handle) : GpuManager Handle :=
  faultCloseHandle outcome manager (manager.page.getInt FhActionCommon.fd)
    (manager.utilGetGdevHandle (manager.page.getInt FhActionCommon.fd))

def faultIoctl (manager : GpuManager Handle) : GpuManager Handle :=
  (gpuIoctl ctx outcome manager).2.setRetAndErrNoDirect (gpuIoctl ctx outcome manager).1

def gpuHandleAction (manager : GpuManager Handle) : Option GpuAction → GpuManager Handle
  | some .setup => faultSetup manager
  | some .teardown => faultTeardown outcome manager
  | some .openDevice => faultOpenDev outcome manager
  | some .closeDevice => faultCloseDev outcome manager
  | some .ioctl => faultIoctl ctx outcome manager
  | some .ping => manager
  -- any other code is only complained about
  | none => manager

end Faults

namespace GpuFault

variable {Handle : Type*}

/-- The action that a fault asks for; `none` when it is not the host's turn. -/
@[irreducible]
def action (fault : GpuFault Handle) : Option GpuAction :=
  if fault.page.get FaultData.turn = FhTurn.host.code then
    GpuAction.ofCode (fault.page.get FaultData.action)
  else none

def fd (fault : GpuFault Handle) : ℤ := fault.page.getInt FhActionCommon.fd

end GpuFault

/-- `on_fault` of the GPU manager, on the page and the memory that the guest has left. -/
@[irreducible]
def gpuOnFault {Handle : Type*} (ctx : CtxStruct) (manager : GpuManager Handle)
    (fault : GpuFault Handle) : GpuManager Handle :=
  let entered := { manager with page := fault.page, target := fault.target }
  if fault.page.get FaultData.turn ≠ FhTurn.host.code then entered
  else
    let handled :=
      gpuHandleAction ctx fault.outcome entered
        (GpuAction.ofCode (fault.page.get FaultData.action))
    handled.setPage (handled.page.set FaultData.turn FhTurn.guest.code)

end Acai
