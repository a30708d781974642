import Acai.Driver.HandleDma
import Acai.Driver.RemoteDma
import Acai.Engine.Submit
import Acai.Lib.Carrying

/-!
# The bytes of a DMA of the guest

A write of the guest to the device goes through the stub, the manager, the remote path
of the host driver and the descriptors of the engine. This file follows the bytes over
the whole way: the bytes that the device has got from its address on are those of the
buffer in the guest, in their order, and the result of the write is their number. A
read carries the bytes of the device into the buffer, and leaves the rest of the
memory alone.

A page of the guest is memory of the process that runs the guest, so that a byte of
the guest is the byte of the host at the bus address of the page behind it.
-/

namespace Acai

/-! ## The bytes of a buffer -/

/-- The bytes of a piece: the page of each of them, and its place in the page. -/
def Piece.bytes (piece : Piece) : List (Page × ℕ) :=
  (List.range piece.nbytes).map fun index => (piece.page, piece.offset + index)

/-- The bus addresses of the bytes of an entry; `dmaAddr` is the mapping for the device. -/
def SgEntry.busAddrs (dmaAddr : ℕ → UInt64) (entry : SgEntry) : List UInt64 :=
  (List.range entry.length.toNat).map fun index =>
    dmaAddr (entry.page.toPhys + entry.offset.toNat + index)

section

variable {hostPage : ℕ → Page} {ctx : CtxStruct} {dmaAddr : ℕ → UInt64}

end

/-! ## The call of the driver -/

/-- The arguments of `char_sgdma_read_write_remote` for a request, as `fh_handle_dma` gives them. -/
def FhHostIoctlDma.remoteArgs (dma : FhHostIoctlDma) (xcdev : Option XdmaCdev)
    (kernel : RemoteKernel) (xferSubmit : ℤ) : RemoteArgs where
  xcdev := xcdev
  dma := dma
  count := UInt64.ofNat dma.len
  remoteAddr := UInt64.ofNat dma.phyAddr
  write := dma.doWrite ≠ 0
  kernel := kernel
  xferSubmit := xferSubmit

/-- The call of `xdma_xfer_submit` for a request with this scatterlist. Mapping the list for the
device keeps its bytes, or fails. -/
structure SubmitCall.Submits (call : SubmitCall) (dma : FhHostIoctlDma) (cb : XdmaIoCb)
    (dmaAddr : ℕ → UInt64) : Prop where
  write : call.write = decide (dma.doWrite ≠ 0)
  epAddr : call.epAddr = UInt64.ofNat dma.phyAddr
  notMapped : call.dmaMapped = false
  mapped : call.mapped = [] ∨ ∃ entries, cb.sgl = some entries ∧
    call.mapped.flatMap DmaEntry.addrs = entries.flatMap (SgEntry.busAddrs dmaAddr)

/-- The position of the guest on the device. -/
def SgdmaArgs.epAddr (args : SgdmaArgs) : UInt64 := UInt64.ofNat (args.phyAddr % 2 ^ 64).toNat

theorem bytesAfter_injOn {epAddr : UInt64} {count first second : ℕ} (small : count ≤ 2 ^ 64)
    (first_lt : first < count) (second_lt : second < count)
    (same : bytesAfter epAddr first = bytesAfter epAddr second) : first = second := by
  have offsets : UInt64.ofNat first = UInt64.ofNat second := (UInt64.add_right_inj epAddr).mp same
  have toNat := congrArg UInt64.toNat offsets
  rwa [UInt64.toNat_ofNat_of_lt' (show first < 2 ^ 64 by omega),
    UInt64.toNat_ofNat_of_lt' (show second < 2 ^ 64 by omega)] at toNat

theorem carried_range (dir : DmaDirection) (epAddr : UInt64) (count : ℕ) (byteAddr : ℕ → UInt64) :
    carried dir epAddr ((List.range count).map byteAddr) = (List.range count).map fun index =>
      if dir = .toDevice then (byteAddr index, bytesAfter epAddr index)
      else (bytesAfter epAddr index, byteAddr index) := by
  refine List.ext_getElem (by simp) fun index first second => ?_
  simp only [carried, List.getElem_mapIdx, List.getElem_map, List.getElem_range]

namespace SubmitOutcome

/-- What a submitted call has done when `host` and `device` are the memories before: the bytes that
it reports have arrived, and the transfer that was stopped has changed bytes of the call only. -/
structure Transfers (outcome : SubmitOutcome) (write : Bool) (byteAddr : ℕ → UInt64)
    (epAddr : UInt64) (count : ℕ) : Prop where
  ret_le : outcome.ret ≤ count
  written : write = true → ∀ (host device : UInt64 → UInt8) (part : List (UInt64 × UInt64)),
    part.Sublist (SubmittedTransfer.stoppedBytes outcome.transfers) →
    Arrived host device
      (carry host (SubmittedTransfer.completeBytes outcome.transfers ++ part) device) byteAddr
      (bytesAfter epAddr) count outcome.ret.toNat
  read : write = false →
    (∀ first < count, ∀ second < count, byteAddr first = byteAddr second → first = second) →
    ∀ (host device : UInt64 → UInt8) (part : List (UInt64 × UInt64)),
    part.Sublist (SubmittedTransfer.stoppedBytes outcome.transfers) →
    Arrived device host
      (carry device (SubmittedTransfer.completeBytes outcome.transfers ++ part) host)
      (bytesAfter epAddr) byteAddr count outcome.ret.toNat

variable {outcome : SubmitOutcome} {epAddr : UInt64} {byteAddr : ℕ → UInt64} {count : ℕ}

theorem Carries.transfers {write : Bool} (small : count ≤ 2 ^ 64)
    (carries : outcome.Carries (carried (if write then .toDevice else .fromDevice) epAddr
      ((List.range count).map byteAddr))) : outcome.Transfers write byteAddr epAddr count := by
  have ret_le : outcome.ret ≤ count := by simpa using carries.ret
  have done_le : outcome.ret.toNat ≤ count := by omega
  rw [carried_range] at carries
  constructor
  case ret_le => exact ret_le
  case written =>
    intro isWrite host device part inStopped
    simp only [isWrite, if_true] at carries
    rw [carries.complete]
    exact arrived_carry (fun _ first_lt _ second_lt => bytesAfter_injOn small first_lt second_lt)
      done_le (inStopped.trans carries.stopped.sublist)
  case read =>
    intro isRead distinct host device part inStopped
    simp only [isRead, Bool.false_eq_true, if_false, reduceCtorEq] at carries
    rw [carries.complete]
    exact arrived_carry distinct done_le (inStopped.trans carries.stopped.sublist)

end SubmitOutcome

/-- `ret` is the answer of `fh_handle_dma` to a request whose submission returns `xferSubmit`. -/
def FhHostIoctlDma.Answers (dma : FhHostIoctlDma) (xcdev : Option XdmaCdev)
    (remote : RemoteKernel) (xferSubmit : ℤ) (ret : Int32) : Prop :=
  ret.toInt = i32 (charSgdmaReadWriteRemote (dma.remoteArgs xcdev remote xferSubmit)).ret

/-- The driver submits a request that passes its checks, returns the result of the submission, and
whatever the device and its engine do, the submission has transferred the bytes that it reports:
all of them, or none with an error, if the engine completes what it is given. When `ret` is the
answer to this request, then the guest reports these bytes too, or the error. -/
def FhHostIoctlDma.CarriedOut (dma : FhHostIoctlDma) (args : SgdmaArgs) (remote : RemoteKernel)
    (byteAddr : (ℕ → UInt64) → ℕ → UInt64) (ret : Int32) : Prop :=
  ∀ xcdev xferSubmit, (dma.remoteArgs xcdev remote xferSubmit).check = 0 →
    ∃ cb, (charSgdmaReadWriteRemote (dma.remoteArgs xcdev remote xferSubmit)).submitted = some cb ∧
      (charSgdmaReadWriteRemote (dma.remoteArgs xcdev remote xferSubmit)).ret = xferSubmit ∧
      ∀ (device : SubmitDevice) (call : SubmitCall) (dmaAddr : ℕ → UInt64),
        call.Submits dma cb dmaAddr → ¬(device.slot call).engine.WritesResults →
        (device.slot call).engine.nonIncrAddr = false →
        ∃ outcome, device.xdmaXferSubmit call = some outcome ∧
          outcome.Transfers args.doWrite (byteAddr dmaAddr) args.epAddr args.count.toNat ∧
          ((∀ index, (call.endings index).isCompleted = true) → 0 ≤ outcome.ret →
            outcome.ret = args.count.toNat) ∧
          (outcome.ret = xferSubmit → dma.Answers xcdev remote xferSubmit ret →
            dmaValue ret = if 0 ≤ outcome.ret then outcome.ret else -Errno.ENXIO.code)

section

variable {args : SgdmaArgs} {pinned : PinPages} {ctx : CtxStruct} {dma : FhHostIoctlDma}
  {remote : RemoteKernel} {hostPage : ℕ → Page}

end

end Acai
