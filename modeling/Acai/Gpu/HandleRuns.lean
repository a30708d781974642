import Acai.Gpu.Handles
import Acai.Lib.Ledger
import Mathlib.Data.List.Nodup

/-!
# Runs of the GPU manager

This file follows the handle table through whole sequences of faults, from the
start of the manager on. A guest chooses the descriptors it names and the order
of its requests; the device library chooses what an open returns.

Three properties are treated. The table stays within its bounds exactly as long
as the guest opens no device after the last slot was handed out. Under that
condition no handle reaches the device library after its close, if an open never
returns a handle that is still open. And a teardown has closed everything that
was opened if no setup came while a descriptor was open.
-/

namespace Acai

variable {Handle : Type*}

/-! ## Replies -/

section Replies

variable (ctx : CtxStruct) (manager : GpuManager Handle)

theorem getInt_setRetAndErrNoDirect_ret (ret : ℤ) :
    (manager.setRetAndErrNoDirect ret).page.getInt FhActionCommon.ret =
      Int.bmod ret (256 ^ FhActionCommon.ret.width) := by
  unfold GpuManager.setRetAndErrNoDirect GpuManager.setPage
  rw [ByteMem.getInt_setInt_of_disjoint (by decide), ByteMem.getInt_setInt_same]

theorem getInt_setRetAndErrNoDirect_errNo (ret : ℤ) :
    (manager.setRetAndErrNoDirect ret).page.getInt FhActionCommon.errNo =
      Int.bmod ret (256 ^ FhActionCommon.errNo.width) := by
  unfold GpuManager.setRetAndErrNoDirect GpuManager.setPage
  rw [ByteMem.getInt_setInt_same]

theorem getInt_setRetAndErrNoDirect_fd (ret : ℤ) :
    (manager.setRetAndErrNoDirect ret).page.getInt FhActionCommon.fd =
      manager.page.getInt FhActionCommon.fd := by
  unfold GpuManager.setRetAndErrNoDirect GpuManager.setPage
  rw [ByteMem.getInt_setInt_of_disjoint (by decide), ByteMem.getInt_setInt_of_disjoint (by decide)]

variable {ctx manager} {fault : GpuFault Handle}

/-- The handler writes the turn behind the reply, and nothing else. -/
theorem getInt_gpuOnFault_of_action {action : GpuAction} (asked : fault.action = some action)
    {field : Field} (apart : FaultData.turn.Disjoint field) :
    (gpuOnFault ctx manager fault).page.getInt field =
      (gpuHandleAction ctx fault.outcome (manager.enter fault) (some action)).page.getInt
        field := by
  rw [gpuOnFault_of_action asked]
  exact ByteMem.getInt_set_of_disjoint apart

/-- A request for a descriptor without a handle is answered with `-EINVAL` twice over. -/
def Refused (manager after : GpuManager Handle) : Prop :=
  after.page.getInt FhActionCommon.ret = -Errno.EINVAL.code ∧
    after.page.getInt FhActionCommon.errNo = -Errno.EINVAL.code ∧ after.calls = manager.calls

theorem refused_gpuOnFault (asked : fault.action = some .closeDevice ∨ fault.action = some .ioctl)
    (notFound : manager.utilGetGdevHandle fault.fd = none) :
    Refused manager (gpuOnFault ctx manager fault) := by
  have notFound' : (manager.enter fault).utilGetGdevHandle
      ((manager.enter fault).page.getInt FhActionCommon.fd) = none := notFound
  have replied : ∀ action, fault.action = some action →
      gpuHandleAction ctx fault.outcome (manager.enter fault) (some action) =
        (manager.enter fault).setRetAndErrNoDirect (-Errno.EINVAL.code) →
      Refused manager (gpuOnFault ctx manager fault) := by
    intro action asked handled
    refine ⟨?_, ?_, ?_⟩
    · rw [getInt_gpuOnFault_of_action asked (by decide), handled, getInt_setRetAndErrNoDirect_ret]
      decide
    · rw [getInt_gpuOnFault_of_action asked (by decide), handled,
        getInt_setRetAndErrNoDirect_errNo]
      decide
    · rw [gpuOnFault_of_action asked, handled]
      rfl
  rcases asked with asked | asked
  · apply replied _ asked
    rw [gpuHandleAction, faultCloseDev, notFound', faultCloseHandle]
  · apply replied _ asked
    rw [gpuHandleAction, faultIoctl, gpuIoctl, notFound', gpuIoctlHandle]

end Replies

/-! ## Bounds of the table -/

namespace GpuFault

/-- The fault opens a device, and the device library returns `handle`. -/
def Opens (fault : GpuFault Handle) (handle : Handle) : Prop :=
  fault.action = some .openDevice ∧ fault.outcome.gopen = some handle

/-- Devices opened since the last setup or teardown. -/
def countOpens (opens : ℕ) (fault : GpuFault Handle) : ℕ :=
  match fault.action with
  | some .setup | some .teardown => 0
  | some .openDevice => if fault.outcome.gopen.isSome then opens + 1 else opens
  | _ => opens

/-- Where the fault opens a device, a slot is left for it. -/
def HasRoom (opens : ℕ) (fault : GpuFault Handle) : Prop :=
  ∀ handle, fault.Opens handle → opens < gdevHandlesMax

/-- The fault opens a device. -/
def isOpen (fault : GpuFault Handle) : Bool :=
  fault.action = some .openDevice && fault.outcome.gopen.isSome

theorem countOpens_le (opens : ℕ) (fault : GpuFault Handle) :
    countOpens opens fault ≤ opens + if fault.isOpen then 1 else 0 := by
  unfold countOpens isOpen
  split
  · omega
  · omega
  · rename_i asked
    simp only [asked, decide_true, Bool.true_and]
    split <;> omega
  · omega

/-- A run with no more opens than the table has slots always finds room. -/
theorem hasRoom_of_countP_le {opens : ℕ} {faults : List (GpuFault Handle)}
    (few : opens + faults.countP isOpen ≤ gdevHandlesMax) :
    Runs.Throughout countOpens HasRoom opens faults := by
  induction faults generalizing opens with
  | nil => exact Runs.throughout_nil _
  | cons fault faults ih =>
      have counted := countOpens_le opens fault
      rw [List.countP_cons] at few
      refine ⟨fun handle opened => ?_, ih (by omega)⟩
      have isOpen : fault.isOpen = true := by simp [GpuFault.isOpen, opened.1, opened.2]
      simp only [isOpen, if_true] at few
      omega

theorem not_opens_of_action {fault : GpuFault Handle} {action : Option GpuAction}
    (asked : fault.action = action) (other : action ≠ some .openDevice) (handle : Handle) :
    ¬fault.Opens handle := by
  intro opens
  exact other (asked.symm.trans opens.1)

end GpuFault

namespace HandleTable

def initial : HandleTable Handle := (GpuManager.initial : GpuManager Handle).table

/-- The counter is the number of opens since the table was cleared. -/
def Counted (table : HandleTable Handle) (opens : ℕ) : Prop :=
  table.next = opens ∧ opens ≤ gdevHandlesMax

theorem i32_succ {opens : ℕ} (room : opens < gdevHandlesMax) :
    i32 (opens + 1) = (opens + 1 : ℕ) := by
  unfold gdevHandlesMax at room
  unfold i32
  rw [Int.bmod_eq_of_le_mul_two] <;> push_cast <;> omega

theorem Serves.counted {table after : HandleTable Handle} {fault : GpuFault Handle}
    (serves : table.Serves fault after) {opens : ℕ} (counted : table.Counted opens)
    (room : GpuFault.HasRoom opens fault) : after.Counted (GpuFault.countOpens opens fault) := by
  rcases counted with ⟨next, bounded⟩
  cases serves with
  | setup asked => simp [Counted, reset, GpuFault.countOpens, asked]
  | teardown asked stored inTable => simp [Counted, reset, GpuFault.countOpens, asked]
  | opened asked handle ret =>
      have left := room handle ⟨asked, ret⟩
      refine ⟨?_, ?_⟩
      · simp only [GpuFault.countOpens, asked, ret, Option.isSome_some, if_true]
        rw [next, i32_succ left]
      · simp only [GpuFault.countOpens, asked, ret, Option.isSome_some, if_true]
        omega
  | openFailed asked ret => simp [Counted, addCalls, GpuFault.countOpens, asked, ret, next, bounded]
  | closed asked handle found =>
      simp [Counted, addCalls, store, GpuFault.countOpens, asked, next, bounded]
  | used asked handle found made uses =>
      simp [Counted, addCalls, GpuFault.countOpens, asked, next, bounded]
  | refused asked notFound =>
      rcases asked with asked | asked <;> simp [Counted, GpuFault.countOpens, asked, next, bounded]
  | ignored asked =>
      rcases asked with asked | asked <;> simp [Counted, GpuFault.countOpens, asked, next, bounded]

/-- Only an open stores to a slot that the fault has not looked up before. -/
theorem Serves.stores_cases {table after : HandleTable Handle} {fault : GpuFault Handle}
    (serves : table.Serves fault after) {opens : ℕ} (counted : table.Counted opens) :
    (∃ handle, fault.Opens handle ∧ after.stores = table.stores ++ [table.next]) ∨
      (∀ handle, ¬fault.Opens handle) ∧
        ∃ stored, (∀ index ∈ stored, InTable index) ∧ after.stores = table.stores ++ stored := by
  rcases counted with ⟨next, bounded⟩
  cases serves with
  | setup asked =>
      refine Or.inr ⟨GpuFault.not_opens_of_action asked (by simp), _, ?_, rfl⟩
      intro index member
      rcases List.mem_map.1 member with ⟨slot, inRange, rfl⟩
      have bound := List.mem_range.1 inRange
      exact ⟨by simp, by simpa using bound⟩
  | teardown asked stored inTable =>
      exact Or.inr ⟨GpuFault.not_opens_of_action asked (by simp), stored, inTable, rfl⟩
  | opened asked handle ret => exact Or.inl ⟨handle, ⟨asked, ret⟩, rfl⟩
  | openFailed asked ret =>
      refine Or.inr ⟨?_, [], by simp, by simp [addCalls]⟩
      intro handle opensDevice
      rw [opensDevice.2] at ret
      cases ret
  | closed asked handle found =>
      refine Or.inr ⟨GpuFault.not_opens_of_action asked (by simp), [fault.fd], ?_, rfl⟩
      intro index member
      rw [List.mem_singleton.1 member]
      rcases find_eq_some_iff.1 found with ⟨lower, upper, -⟩
      exact ⟨lower, by omega⟩
  | used asked handle found made uses =>
      exact Or.inr ⟨GpuFault.not_opens_of_action asked (by simp), [], by simp, by simp [addCalls]⟩
  | refused asked notFound =>
      refine Or.inr ⟨?_, [], by simp, by simp⟩
      rcases asked with asked | asked
      · exact GpuFault.not_opens_of_action asked (by simp)
      · exact GpuFault.not_opens_of_action asked (by simp)
  | ignored asked =>
      refine Or.inr ⟨?_, [], by simp, by simp⟩
      rcases asked with asked | asked
      · exact GpuFault.not_opens_of_action asked (by simp)
      · exact GpuFault.not_opens_of_action asked (by simp)

theorem Serves.stores_inTable_iff {table after : HandleTable Handle} {fault : GpuFault Handle}
    (serves : table.Serves fault after) {opens : ℕ} (counted : table.Counted opens) :
    (∀ index ∈ after.stores.drop table.stores.length, InTable index) ↔
      GpuFault.HasRoom opens fault := by
  have next := counted.1
  rcases serves.stores_cases counted with
    ⟨handle, opened, stores⟩ | ⟨noOpen, stored, within, stores⟩
  · rw [stores, List.drop_left]
    simp only [List.mem_singleton, forall_eq, next]
    constructor
    · intro inTable _ _
      have bound := inTable.2
      omega
    · intro room
      have left := room handle opened
      exact ⟨by omega, by omega⟩
  · rw [stores, List.drop_left]
    exact iff_of_true within fun handle opens => absurd opens (noOpen handle)

end HandleTable

/-- A fault after which the descriptor in the reply names the new handle, and every other
descriptor what it named before. -/
def NamesNewHandle (manager after : GpuManager Handle) (handle : Handle) : Prop :=
  after.page.getInt FhActionCommon.ret = 0 ∧
    after.utilGetGdevHandle (after.page.getInt FhActionCommon.fd) = some handle ∧
      ∀ other, other ≠ after.page.getInt FhActionCommon.fd →
        after.utilGetGdevHandle other = manager.utilGetGdevHandle other

/-- What one fault has to keep for the table to stay within its bounds. -/
structure StaysInTable (ctx : CtxStruct) (manager : GpuManager Handle) (fault : GpuFault Handle) :
    Prop where
  nonneg : 0 ≤ (gpuOnFault ctx manager fault).gdevHandleI
  le_max : (gpuOnFault ctx manager fault).gdevHandleI ≤ gdevHandlesMax
  stores : ∀ index ∈ (gpuOnFault ctx manager fault).stores.drop manager.stores.length,
    0 ≤ index ∧ index < gdevHandlesMax
  named : ∀ handle, fault.Opens handle →
    NamesNewHandle manager (gpuOnFault ctx manager fault) handle

theorem gpuHandleAction_openDevice (ctx : CtxStruct) (outcome : GpuOutcome Handle)
    (manager : GpuManager Handle) :
    gpuHandleAction ctx outcome manager (some .openDevice) = faultOpenDev outcome manager := rfl

theorem fd_gpuOnFault_of_opens (ctx : CtxStruct) (manager : GpuManager Handle)
    {fault : GpuFault Handle} {handle : Handle} (opened : fault.Opens handle) {opens : ℕ}
    (next : manager.gdevHandleI = opens) (left : opens < gdevHandlesMax) :
    (gpuOnFault ctx manager fault).page.getInt FhActionCommon.fd = opens := by
  rcases opened with ⟨asked, ret⟩
  have small : opens < 2048 := left
  rw [getInt_gpuOnFault_of_action asked (by decide), gpuHandleAction_openDevice]
  simp only [faultOpenDev, ret]
  rw [getInt_setRetAndErrNoDirect_fd]
  simp only [GpuManager.storeHandle, GpuManager.setPage, GpuManager.addCall]
  rw [ByteMem.getInt_setInt_same]
  simp only [GpuManager.enter, next]
  apply Int.bmod_eq_of_le_mul_two <;> norm_num [FhActionCommon.fd] <;> omega

theorem ret_gpuOnFault_of_opens (ctx : CtxStruct) (manager : GpuManager Handle)
    {fault : GpuFault Handle} {handle : Handle} (opened : fault.Opens handle) :
    (gpuOnFault ctx manager fault).page.getInt FhActionCommon.ret = 0 := by
  rcases opened with ⟨asked, ret⟩
  rw [getInt_gpuOnFault_of_action asked (by decide), gpuHandleAction_openDevice]
  simp only [faultOpenDev, ret]
  rw [getInt_setRetAndErrNoDirect_ret]
  decide

theorem ret_gpuOnFault_of_openFailed (ctx : CtxStruct) (manager : GpuManager Handle)
    {fault : GpuFault Handle} (asked : fault.action = some .openDevice)
    (ret : fault.outcome.gopen = none) :
    (gpuOnFault ctx manager fault).page.getInt FhActionCommon.ret = -Errno.EINVAL.code := by
  rw [getInt_gpuOnFault_of_action asked (by decide), gpuHandleAction_openDevice]
  simp only [faultOpenDev, ret]
  rw [getInt_setRetAndErrNoDirect_ret]
  decide

theorem table_gpuOnFault_of_opens (ctx : CtxStruct) (manager : GpuManager Handle)
    {fault : GpuFault Handle} {handle : Handle} (opened : fault.Opens handle) :
    (gpuOnFault ctx manager fault).table =
      { (manager.table.addCalls [.gopen 0 (some handle)]).store manager.gdevHandleI (some handle)
        with next := i32 (manager.gdevHandleI + 1) } := by
  rcases opened with ⟨asked, ret⟩
  rw [gpuOnFault_of_action asked, gpuHandleAction_openDevice]
  simp only [faultOpenDev, ret]
  rfl

theorem namesNewHandle_of_hasRoom {ctx : CtxStruct} {manager : GpuManager Handle}
    {fault : GpuFault Handle} {opens : ℕ} (counted : manager.table.Counted opens)
    (room : GpuFault.HasRoom opens fault) {handle : Handle} (opened : fault.Opens handle) :
    NamesNewHandle manager (gpuOnFault ctx manager fault) handle := by
  have left := room handle opened
  have next : manager.gdevHandleI = opens := counted.1
  have fd := fd_gpuOnFault_of_opens ctx manager opened next left
  have table := table_gpuOnFault_of_opens ctx manager opened
  rw [next, HandleTable.i32_succ left] at table
  refine ⟨ret_gpuOnFault_of_opens ctx manager opened, ?_, ?_⟩
  · rw [fd, ← GpuManager.find_table, table, HandleTable.find_eq_some_iff]
    refine ⟨by omega, ?_, Function.update_self ..⟩
    dsimp only
    omega
  · intro other differs
    rw [fd] at differs
    rw [← GpuManager.find_table, ← GpuManager.find_table, table]
    unfold HandleTable.find
    simp only [HandleTable.store, HandleTable.addCalls, GpuManager.table_next, next,
      Function.update_of_ne differs]
    apply if_congr _ rfl rfl
    omega

theorem staysInTable_iff {ctx : CtxStruct} {manager : GpuManager Handle} {fault : GpuFault Handle}
    {opens : ℕ} (counted : manager.table.Counted opens) :
    StaysInTable ctx manager fault ↔ GpuFault.HasRoom opens fault := by
  have serves := serves_gpuOnFault ctx manager fault
  have stores := serves.stores_inTable_iff counted
  simp only [GpuManager.table_stores, HandleTable.InTable] at stores
  constructor
  · intro stays
    exact stores.1 stays.stores
  · intro room
    rcases serves.counted counted room with ⟨next, bounded⟩
    rw [GpuManager.table_next] at next
    exact
      { nonneg := by omega
        le_max := by omega
        stores := stores.2 room
        named := fun handle opened => namesNewHandle_of_hasRoom counted room opened }

/-- Over every sequence of faults the table stays within its bounds if and only if no device is
opened after the last slot was handed out. -/
theorem gpu_staysInTable_iff (ctx : CtxStruct) (faults : List (GpuFault Handle)) :
    Runs.Throughout (gpuOnFault ctx) (StaysInTable ctx) GpuManager.initial faults ↔
      Runs.Throughout GpuFault.countOpens GpuFault.HasRoom 0 faults := by
  apply Runs.throughout_iff_of_simulation fun manager opens => manager.table.Counted opens
  · intro manager opens fault counted
    exact staysInTable_iff counted
  · intro manager opens fault counted room
    exact (serves_gpuOnFault ctx manager fault).counted counted room
  · exact ⟨rfl, by simp⟩

/-- A guest's request for `action`, on a page that is otherwise empty but for the descriptor. -/
def GpuAction.request (action : GpuAction) (fd : ℤ) : ByteMem :=
  ((ByteMem.zero.set FaultData.turn FhTurn.host.code).set FaultData.action action.code).setInt
    FhActionCommon.fd fd

/-- The request served by a device library in which every call but the open just succeeds. -/
def GpuAction.fault (action : GpuAction) (fd : ℤ) (gopen : Option ℕ) : GpuFault ℕ where
  page := action.request fd
  target := ByteMem.zero
  outcome :=
    { gopen := gopen
      gclose := fun _ => 0
      gdevRet := 0
      gdevResult := 0
      launchId := 0
      deviceBytes := ByteMem.zero
      malloc := fun _ => some ByteMem.zero
      copied := fun _ => 0 }

theorem GpuAction.action_fault (action : GpuAction) (fd : ℤ) (gopen : Option ℕ) :
    (action.fault fd gopen).action = some action := by
  unfold GpuFault.action GpuAction.fault GpuAction.request
  simp only
  rw [ByteMem.get_setInt_of_disjoint (by decide), ByteMem.get_set_of_disjoint (by decide),
    ByteMem.get_set_same, ByteMem.get_setInt_of_disjoint (by decide), ByteMem.get_set_same]
  cases action <;> rfl

theorem counted_after_opens (ctx : CtxStruct) (count : ℕ) (bounded : count ≤ gdevHandlesMax) :
    (Runs.after (gpuOnFault ctx) GpuManager.initial
      ((List.range count).map fun index => GpuAction.openDevice.fault 0 (some index))).table.Counted
        count := by
  induction count with
  | zero => exact ⟨rfl, by simp⟩
  | succ count ih =>
      have counted := ih (by omega)
      rw [List.range_succ, List.map_append, Runs.after_append]
      generalize Runs.after (gpuOnFault ctx) GpuManager.initial _ = manager at counted ⊢
      have asked := GpuAction.action_fault .openDevice 0 (some count)
      have room : GpuFault.HasRoom count (GpuAction.openDevice.fault 0 (some count)) :=
        fun _ _ => by omega
      have opens : GpuFault.countOpens count (GpuAction.openDevice.fault 0 (some count)) =
          count + 1 := by
        unfold GpuFault.countOpens
        rw [asked]
        rfl
      have next := (serves_gpuOnFault ctx manager _).counted counted room
      rw [opens] at next
      rw [List.map_singleton, Runs.after_cons, Runs.after_nil]
      exact next

theorem not_staysInTable_of_full (ctx : CtxStruct) {count : ℕ} (full : count = gdevHandlesMax) :
    ¬Runs.Throughout (gpuOnFault ctx) (StaysInTable ctx) GpuManager.initial
      ((List.range (count + 1)).map fun index => GpuAction.openDevice.fault 0 (some index)) := by
  intro throughout
  rw [List.range_succ, List.map_append, Runs.throughout_append] at throughout
  have counted := counted_after_opens ctx count full.le
  have room := (staysInTable_iff counted).1 throughout.2.1
  have opened : (GpuAction.openDevice.fault 0 (some count)).Opens count :=
    ⟨GpuAction.action_fault .openDevice 0 _, rfl⟩
  have left := room _ opened
  omega

/-- One open more than the table has slots: the last one stores behind the table. -/
theorem gpu_leaves_table :
    ¬Runs.Throughout (gpuOnFault CtxStruct.zero) (StaysInTable CtxStruct.zero) GpuManager.initial
      ((List.range (gdevHandlesMax + 1)).map fun index =>
        GpuAction.openDevice.fault 0 (some index)) :=
  not_staysInTable_of_full CtxStruct.zero rfl

/-! ## No use after close -/

def GdevCall.event : GdevCall Handle → Option (Ledger.Event Handle)
  | gopen _ handle => handle.map .acquire
  | gclose handle _ => some (.release handle)
  | gmalloc handle _ _ | gfree handle _ _ | gmemcpyToDevice handle _ _ _
  | gmemcpyFromDevice handle _ _ _ | glaunch handle _ _ _ _ | gsync handle _ _ _
  | gbarrier handle _ | gquery handle _ _ _ | gtune handle _ _ _ | gvirtget handle _ _ =>
      some (.use handle)

/-- The ledger of the handles, as the device library sees it. -/
def gdevLedger (calls : List (GdevCall Handle)) : List (Ledger.Event Handle) :=
  calls.filterMap GdevCall.event

theorem gdevLedger_append (earlier later : List (GdevCall Handle)) :
    gdevLedger (earlier ++ later) = gdevLedger earlier ++ gdevLedger later :=
  List.filterMap_append

theorem GdevCall.event_of_uses {call : GdevCall Handle} {handle : Handle}
    (uses : call.Uses handle) : call.event = some (.use handle) := by
  rcases uses with ⟨on, noClose⟩
  cases call with
  | gopen minor ret => cases on
  | gclose other ret =>
      cases on
      exact absurd rfl (noClose ret)
  | _ =>
      cases on
      rfl

theorem GdevCall.event_of_handle {call : GdevCall Handle} {handle : Handle}
    (on : call.handle = some handle) :
    call.event = some (.release handle) ∨ call.event = some (.use handle) := by
  cases call with
  | gopen minor ret => cases on
  | gclose other ret =>
      cases on
      exact Or.inl rfl
  | _ =>
      cases on
      exact Or.inr rfl

namespace HandleTable

/-- The handles that the device library has open. -/
def openHandles (table : HandleTable Handle) : Set Handle := Ledger.live (gdevLedger table.calls)

/-- The slots below the counter are the only ones that hold a handle. -/
structure Filled (table : HandleTable Handle) (opens : ℕ) : Prop where
  counted : table.Counted opens
  beyond : ∀ index, index < 0 ∨ table.next ≤ index → table.slots index = none

namespace Filled

variable {table : HandleTable Handle} {opens : ℕ}

theorem inTable (filled : table.Filled opens) {index : ℤ} {handle : Handle}
    (holds : table.slots index = some handle) : InTable index := by
  by_contra outside
  have next := filled.counted.1
  have bounded := filled.counted.2
  rw [filled.beyond index (by unfold InTable at outside; omega)] at holds
  cases holds

theorem slots_reset (filled : table.Filled opens) (stored : List ℤ) (index : ℤ) :
    (table.reset stored).slots index = none := by
  simp only [HandleTable.reset]
  split
  · rfl
  · rename_i outside
    by_contra holds
    rcases Option.ne_none_iff_exists'.1 holds with ⟨handle, holds⟩
    exact outside (filled.inTable holds)

theorem find_eq (filled : table.Filled opens) (index : ℤ) :
    table.find index = table.slots index := by
  unfold find
  split
  · rename_i outside
    exact (filled.beyond index outside).symm
  · rfl

end Filled

theorem Serves.filled {table after : HandleTable Handle} {fault : GpuFault Handle} {opens : ℕ}
    (serves : table.Serves fault after) (filled : table.Filled opens)
    (room : GpuFault.HasRoom opens fault) : after.Filled (GpuFault.countOpens opens fault) := by
  refine ⟨serves.counted filled.counted room, ?_⟩
  cases serves with
  | setup asked =>
      intro index _
      exact filled.slots_reset _ index
  | teardown asked stored inTable =>
      intro index _
      exact filled.slots_reset stored index
  | opened asked handle ret =>
      have next := filled.counted.1
      have left := room handle ⟨asked, ret⟩
      intro index outside
      dsimp only at outside
      rw [next, i32_succ left] at outside
      have differs : index ≠ table.next := by omega
      simp only [store, addCalls, Function.update_of_ne differs]
      exact filled.beyond index (by omega)
  | openFailed asked ret => exact filled.beyond
  | closed asked handle found =>
      intro index outside
      simp only [store, addCalls]
      by_cases same : index = fault.fd
      · rw [same, Function.update_self]
      · rw [Function.update_of_ne same]
        exact filled.beyond index outside
  | used asked handle found made uses => exact filled.beyond
  | refused asked notFound => exact filled.beyond
  | ignored asked => exact filled.beyond

theorem initial_filled : (initial : HandleTable Handle).Filled 0 where
  counted := ⟨rfl, by simp⟩
  beyond := fun _ _ => rfl

theorem mem_held {table : HandleTable Handle} {handle : Handle} :
    handle ∈ table.held ↔ ∃ index, InTable index ∧ table.slots index = some handle := by
  unfold held InTable
  rw [List.mem_filterMap]
  constructor
  · rintro ⟨index, member, holds⟩
    have bound := List.mem_range.1 member
    exact ⟨index, ⟨by omega, by omega⟩, holds⟩
  · rintro ⟨index, ⟨nonneg, bound⟩, holds⟩
    refine ⟨index.toNat, List.mem_range.2 (by omega), ?_⟩
    rw [Int.toNat_of_nonneg nonneg]
    exact holds

/-! ### The ledger of a table -/

theorem gdevLedger_closes (handles : List Handle) (ret : Handle → ℤ) :
    gdevLedger (handles.map fun handle => .gclose handle (ret handle)) =
      handles.map .release := by
  unfold gdevLedger
  rw [List.filterMap_map, ← List.filterMap_eq_map']
  rfl

theorem openHandles_addCalls (table : HandleTable Handle) (calls : List (GdevCall Handle)) :
    (table.addCalls calls).openHandles =
      Runs.after Ledger.step table.openHandles (gdevLedger calls) := by
  unfold openHandles addCalls
  rw [gdevLedger_append, Ledger.live_append]

theorem openHandles_opened (table : HandleTable Handle) (handle : Handle) (next : ℤ) :
    { (table.addCalls [.gopen 0 (some handle)]).store table.next (some handle) with
      next := next : HandleTable Handle }.openHandles = insert handle table.openHandles :=
  openHandles_addCalls table [.gopen 0 (some handle)]

theorem openHandles_openFailed (table : HandleTable Handle) :
    (table.addCalls [.gopen 0 none]).openHandles = table.openHandles :=
  openHandles_addCalls table [.gopen 0 none]

theorem openHandles_closed (table : HandleTable Handle) (handle : Handle) (ret index : ℤ) :
    ((table.addCalls [.gclose handle ret]).store index none).openHandles =
      table.openHandles \ {handle} :=
  openHandles_addCalls table [.gclose handle ret]

theorem onlyUses_gdevLedger {handle : Handle} {made : List (GdevCall Handle)}
    (uses : ∀ call ∈ made, call.Uses handle) : ∀ event ∈ gdevLedger made, event = .use handle := by
  intro event member
  rcases List.mem_filterMap.1 member with ⟨call, called, isEvent⟩
  rw [GdevCall.event_of_uses (uses call called)] at isEvent
  exact (Option.some.inj isEvent).symm

theorem openHandles_used (table : HandleTable Handle) {handle : Handle}
    {made : List (GdevCall Handle)} (uses : ∀ call ∈ made, call.Uses handle) :
    (table.addCalls made).openHandles = table.openHandles := by
  rw [openHandles_addCalls]
  exact Ledger.after_uses _ (onlyUses_gdevLedger uses)

/-- A teardown closes every handle in the table. -/
theorem openHandles_teardown (table : HandleTable Handle) (ret : Handle → ℤ) (stored : List ℤ) :
    ((table.addCalls (table.held.map fun handle => .gclose handle (ret handle))).reset
      stored).openHandles = table.openHandles \ {handle | handle ∈ table.held} := by
  calc
    _ = (table.addCalls (table.held.map fun handle =>
          .gclose handle (ret handle))).openHandles := rfl
    _ = _ := by rw [openHandles_addCalls, gdevLedger_closes, Ledger.after_releases]

theorem wellUsed_addCalls {table : HandleTable Handle} {calls : List (GdevCall Handle)}
    (wellUsed : Ledger.WellUsed (gdevLedger table.calls))
    (permitted : Runs.Throughout Ledger.step Ledger.Permitted table.openHandles
      (gdevLedger calls)) :
    Ledger.WellUsed (gdevLedger (table.addCalls calls).calls) := by
  unfold addCalls
  rw [gdevLedger_append]
  exact (Ledger.wellUsed_append _ _).2 ⟨wellUsed, permitted⟩

/-- The slots hold different open handles, and the calls so far were made on open handles. -/
structure Sound (table : HandleTable Handle) : Prop where
  isOpen : ∀ index handle, table.slots index = some handle → handle ∈ table.openHandles
  distinct : ∀ index other handle, table.slots index = some handle →
    table.slots other = some handle → index = other
  wellUsed : Ledger.WellUsed (gdevLedger table.calls)

namespace Sound

variable {table : HandleTable Handle}

theorem held_nodup (sound : table.Sound) : table.held.Nodup := by
  unfold held
  apply List.Nodup.filterMap _ List.nodup_range
  intro index other handle holds holds'
  have same := sound.distinct index other handle holds holds'
  omega

theorem of_cleared {after : HandleTable Handle} (cleared : ∀ index, after.slots index = none)
    (wellUsed : Ledger.WellUsed (gdevLedger after.calls)) : after.Sound where
  isOpen := by
    intro index handle holds
    rw [cleared] at holds
    cases holds
  distinct := by
    intro index other handle holds
    rw [cleared] at holds
    cases holds
  wellUsed := wellUsed

theorem opened (sound : table.Sound) {handle : Handle} (fresh : handle ∉ table.openHandles)
    (next : ℤ) :
    { (table.addCalls [.gopen 0 (some handle)]).store table.next (some handle) with
      next := next : HandleTable Handle }.Sound := by
  have isNew : ∀ index, table.slots index ≠ some handle := by
    intro index holds
    exact fresh (sound.isOpen index handle holds)
  refine ⟨?_, ?_, wellUsed_addCalls sound.wellUsed ⟨trivial, trivial⟩⟩
  · intro index other holds
    rw [openHandles_opened]
    simp only [store, addCalls] at holds
    by_cases same : index = table.next
    · rw [same, Function.update_self] at holds
      rw [Option.some.inj holds]
      exact Set.mem_insert ..
    · rw [Function.update_of_ne same] at holds
      exact Set.mem_insert_of_mem _ (sound.isOpen index other holds)
  · intro index other handle' holds holds'
    simp only [store, addCalls] at holds holds'
    by_cases same : index = table.next <;> by_cases same' : other = table.next
    · rw [same, same']
    · rw [same, Function.update_self] at holds
      rw [Function.update_of_ne same', ← holds] at holds'
      exact absurd holds' (isNew other)
    · rw [same', Function.update_self] at holds'
      rw [Function.update_of_ne same, ← holds'] at holds
      exact absurd holds (isNew index)
    · rw [Function.update_of_ne same] at holds
      rw [Function.update_of_ne same'] at holds'
      exact sound.distinct index other handle' holds holds'

theorem closed (sound : table.Sound) {index : ℤ} {handle : Handle}
    (holds : table.slots index = some handle) (ret : ℤ) :
    ((table.addCalls [.gclose handle ret]).store index none).Sound := by
  have others : ∀ other handle', Function.update table.slots index none other = some handle' →
      other ≠ index ∧ table.slots other = some handle' := by
    intro other handle' holds'
    by_cases same : other = index
    · rw [same, Function.update_self] at holds'
      cases holds'
    · rw [Function.update_of_ne same] at holds'
      exact ⟨same, holds'⟩
  refine ⟨?_, ?_, ?_⟩
  · intro other handle' holds'
    rcases others other handle' holds' with ⟨differs, stays⟩
    rw [openHandles_closed]
    refine ⟨sound.isOpen other handle' stays, ?_⟩
    rintro rfl
    exact differs (sound.distinct other index handle' stays holds)
  · intro left right handle' holdsLeft holdsRight
    exact sound.distinct left right handle' (others left handle' holdsLeft).2
      (others right handle' holdsRight).2
  · exact wellUsed_addCalls sound.wellUsed ⟨sound.isOpen index handle holds, trivial⟩

theorem used (sound : table.Sound) {handle : Handle} (isOpen : handle ∈ table.openHandles)
    {made : List (GdevCall Handle)} (uses : ∀ call ∈ made, call.Uses handle) :
    (table.addCalls made).Sound where
  isOpen := by
    intro index other holds
    rw [openHandles_used table uses]
    exact sound.isOpen index other holds
  distinct := sound.distinct
  wellUsed :=
    wellUsed_addCalls sound.wellUsed (Ledger.throughout_uses isOpen (onlyUses_gdevLedger uses))

end Sound

/-- One fault keeps the table sound, if a device that it opens is not open yet. -/
theorem Serves.sound {table after : HandleTable Handle} {fault : GpuFault Handle} {opens : ℕ}
    (serves : table.Serves fault after) (filled : table.Filled opens) (sound : table.Sound)
    (fresh : ∀ handle, fault.Opens handle → handle ∉ table.openHandles) : after.Sound := by
  cases serves with
  | setup asked => exact .of_cleared (filled.slots_reset _) sound.wellUsed
  | teardown asked stored inTable =>
      have areOpen : ∀ handle ∈ table.held, handle ∈ table.openHandles := by
        intro handle member
        rcases mem_held.1 member with ⟨index, -, holds⟩
        exact sound.isOpen index handle holds
      have permitted := Ledger.throughout_releases areOpen sound.held_nodup
      rw [← gdevLedger_closes table.held fun handle => (fault.outcome.gclose handle).toInt]
        at permitted
      exact .of_cleared (filled.slots_reset stored) (wellUsed_addCalls sound.wellUsed permitted)
  | opened asked handle ret => exact sound.opened (fresh handle ⟨asked, ret⟩) _
  | openFailed asked ret =>
      refine ⟨?_, sound.distinct, wellUsed_addCalls sound.wellUsed trivial⟩
      rw [openHandles_openFailed]
      exact sound.isOpen
  | closed asked handle found => exact sound.closed (find_eq_some_iff.1 found).2.2 _
  | used asked handle found made uses =>
      exact sound.used (sound.isOpen fault.fd handle (find_eq_some_iff.1 found).2.2) uses
  | refused asked notFound => exact sound
  | ignored asked => exact sound

theorem initial_sound : (initial : HandleTable Handle).Sound :=
  .of_cleared (fun _ => rfl) (Runs.throughout_nil _)

end HandleTable

/-- The manager together with the descriptors that the guest holds open, by the replies that it
got since the table was last cleared. -/
structure GpuSession (Handle : Type*) where
  manager : GpuManager Handle
  fds : Set ℤ

namespace GpuSession

def initial : GpuSession Handle where
  manager := GpuManager.initial
  fds := ∅

theorem initial_manager : (initial : GpuSession Handle).manager = GpuManager.initial := rfl

def fdsAfter (fds : Set ℤ) (fault : GpuFault Handle) (reply : ByteMem) : Set ℤ :=
  match fault.action with
  | some .setup | some .teardown => ∅
  | some .openDevice =>
      if reply.getInt FhActionCommon.ret = 0 then insert (reply.getInt FhActionCommon.fd) fds
      else fds
  | some .closeDevice => fds \ {fault.fd}
  | _ => fds

def step (ctx : CtxStruct) (session : GpuSession Handle) (fault : GpuFault Handle) :
    GpuSession Handle where
  manager := gpuOnFault ctx session.manager fault
  fds := fdsAfter session.fds fault (gpuOnFault ctx session.manager fault).page

/-- A request that names a descriptor which is not open is refused. -/
def RefusesUnknown (ctx : CtxStruct) (session : GpuSession Handle) (fault : GpuFault Handle) :
    Prop :=
  fault.action = some .closeDevice ∨ fault.action = some .ioctl → fault.fd ∉ session.fds →
    Refused session.manager (gpuOnFault ctx session.manager fault)

/-- The device library does not return a handle that is still open. -/
def FreshOpen (manager : GpuManager Handle) (fault : GpuFault Handle) : Prop :=
  ∀ handle, fault.Opens handle → handle ∉ manager.table.openHandles

structure Sound (session : GpuSession Handle) (opens : ℕ) : Prop where
  filled : session.manager.table.Filled opens
  table : session.manager.table.Sound
  fds : ∀ index, index ∈ session.fds ↔ session.manager.table.slots index ≠ none

theorem step_manager (ctx : CtxStruct) (session : GpuSession Handle) (fault : GpuFault Handle) :
    (step ctx session fault).manager = gpuOnFault ctx session.manager fault := rfl

theorem step_fds (ctx : CtxStruct) (session : GpuSession Handle) (fault : GpuFault Handle) :
    (step ctx session fault).fds =
      fdsAfter session.fds fault (gpuOnFault ctx session.manager fault).page := rfl

theorem after_manager (ctx : CtxStruct) (session : GpuSession Handle)
    (faults : List (GpuFault Handle)) :
    (Runs.after (step ctx) session faults).manager =
      Runs.after (gpuOnFault ctx) session.manager faults := by
  induction faults generalizing session with
  | nil => rfl
  | cons fault faults ih => rw [Runs.after_cons, Runs.after_cons, ih, step_manager]

/-- The guest's descriptors follow the slots. -/
theorem mem_fdsAfter_iff {table after : HandleTable Handle} {fault : GpuFault Handle} {opens : ℕ}
    {fds : Set ℤ} {reply : ByteMem} (serves : table.Serves fault after)
    (filled : table.Filled opens) (known : ∀ index, index ∈ fds ↔ table.slots index ≠ none)
    (replied : ∀ handle, fault.Opens handle →
      reply.getInt FhActionCommon.ret = 0 ∧ reply.getInt FhActionCommon.fd = table.next)
    (failed : fault.action = some .openDevice → fault.outcome.gopen = none →
      reply.getInt FhActionCommon.ret ≠ 0) (index : ℤ) :
    index ∈ fdsAfter fds fault reply ↔ after.slots index ≠ none := by
  cases serves with
  | setup asked =>
      rw [filled.slots_reset]
      simp [fdsAfter, asked]
  | teardown asked stored inTable =>
      have cleared : ((table.addCalls (table.held.map fun handle =>
          .gclose handle (fault.outcome.gclose handle).toInt)).reset stored).slots index = none :=
        filled.slots_reset stored index
      rw [cleared]
      simp [fdsAfter, asked]
  | opened asked handle ret =>
      rcases replied handle ⟨asked, ret⟩ with ⟨success, fd⟩
      simp only [fdsAfter, asked, success, fd, if_true, HandleTable.store, HandleTable.addCalls]
      by_cases same : index = table.next
      · subst same
        simp
      · rw [Function.update_of_ne same, ← known]
        simp [same]
  | openFailed asked ret =>
      have refusal := failed asked ret
      simp only [fdsAfter, asked, refusal, if_false]
      exact known index
  | closed asked handle found =>
      simp only [fdsAfter, asked, HandleTable.store, HandleTable.addCalls]
      by_cases same : index = fault.fd
      · rw [same, Function.update_self]
        simp
      · rw [Function.update_of_ne same, ← known]
        simp [same]
  | used asked handle found made uses =>
      simp only [fdsAfter, asked]
      exact known index
  | refused asked notFound =>
      rcases asked with asked | asked
      · rw [filled.find_eq] at notFound
        have closed : fault.fd ∉ fds := by simp [known, notFound]
        simp only [fdsAfter, asked]
        rw [Set.sdiff_singleton_eq_self closed]
        exact known index
      · simp only [fdsAfter, asked]
        exact known index
  | ignored asked =>
      rcases asked with asked | asked <;>
      · simp only [fdsAfter, asked]
        exact known index

theorem Sound.step {session : GpuSession Handle} {opens : ℕ} (sound : session.Sound opens)
    (ctx : CtxStruct) {fault : GpuFault Handle} (fresh : FreshOpen session.manager fault)
    (room : GpuFault.HasRoom opens fault) :
    (GpuSession.step ctx session fault).Sound (GpuFault.countOpens opens fault) := by
  have serves := serves_gpuOnFault ctx session.manager fault
  have next := sound.filled.counted.1
  have replied : ∀ handle, fault.Opens handle →
      (gpuOnFault ctx session.manager fault).page.getInt FhActionCommon.ret = 0 ∧
        (gpuOnFault ctx session.manager fault).page.getInt FhActionCommon.fd =
          session.manager.table.next := by
    intro handle opened
    refine ⟨ret_gpuOnFault_of_opens ctx session.manager opened, ?_⟩
    rw [next]
    exact fd_gpuOnFault_of_opens ctx session.manager opened next (room handle opened)
  have failed : fault.action = some .openDevice → fault.outcome.gopen = none →
      (gpuOnFault ctx session.manager fault).page.getInt FhActionCommon.ret ≠ 0 := by
    intro asked ret
    rw [ret_gpuOnFault_of_openFailed ctx session.manager asked ret]
    decide
  refine ⟨serves.filled sound.filled room, serves.sound sound.filled sound.table fresh, ?_⟩
  intro index
  rw [step_fds, step_manager]
  exact mem_fdsAfter_iff serves sound.filled sound.fds replied failed index

theorem Sound.refusesUnknown {session : GpuSession Handle} {opens : ℕ} (sound : session.Sound opens)
    (ctx : CtxStruct) (fault : GpuFault Handle) : RefusesUnknown ctx session fault := by
  intro asked unknown
  apply refused_gpuOnFault asked
  rw [← GpuManager.find_table, sound.filled.find_eq]
  by_contra named
  exact unknown ((sound.fds fault.fd).2 named)

theorem initial_sound : (initial : GpuSession Handle).Sound 0 where
  filled := HandleTable.initial_filled
  table := HandleTable.initial_sound
  fds := by
    intro index
    simp [initial, GpuManager.initial, GpuManager.table]

/-- A whole run: every step refuses what it has to refuse, and the table stays sound. -/
theorem Sound.run (ctx : CtxStruct) {session : GpuSession Handle} {opens : ℕ}
    (sound : session.Sound opens) {faults : List (GpuFault Handle)}
    (fresh : Runs.Throughout (gpuOnFault ctx) FreshOpen session.manager faults)
    (room : Runs.Throughout GpuFault.countOpens GpuFault.HasRoom opens faults) :
    Runs.Throughout (GpuSession.step ctx) (RefusesUnknown ctx) session faults ∧
      ∃ opens', (Runs.after (GpuSession.step ctx) session faults).Sound opens' := by
  induction faults generalizing session opens with
  | nil => exact ⟨Runs.throughout_nil _, opens, sound⟩
  | cons fault faults ih =>
      rcases fresh with ⟨freshNow, freshLater⟩
      rcases room with ⟨roomNow, roomLater⟩
      rcases ih (sound.step ctx freshNow roomNow) freshLater roomLater with ⟨refuses, ends⟩
      exact ⟨⟨sound.refusesUnknown ctx fault, refuses⟩, ends⟩

end GpuSession

/-- No handle reaches the device library after its close: each is closed at most once for each time
it was opened, a call on a closed handle comes behind a new open, and a descriptor that is not
open is refused. -/
theorem gpu_handles_wellUsed [DecidableEq Handle] (ctx : CtxStruct)
    (faults : List (GpuFault Handle))
    (fresh : Runs.Throughout (gpuOnFault ctx) GpuSession.FreshOpen GpuManager.initial faults)
    (room : Runs.Throughout GpuFault.countOpens GpuFault.HasRoom 0 faults) :
    (∀ handle,
      (gdevLedger (Runs.after (gpuOnFault ctx) .initial faults).calls).count (.release handle) ≤
        (gdevLedger (Runs.after (gpuOnFault ctx) .initial faults).calls).count (.acquire handle)) ∧
    (∀ earlier handle ret between call later,
      (Runs.after (gpuOnFault ctx) .initial faults).calls =
        earlier ++ .gclose handle ret :: (between ++ call :: later) →
      call.handle = some handle → ∃ minor, .gopen minor (some handle) ∈ between) ∧
    Runs.Throughout (GpuSession.step ctx) (GpuSession.RefusesUnknown ctx) .initial faults := by
  rcases GpuSession.initial_sound.run ctx fresh room with ⟨refuses, opens, sound⟩
  have wellUsed := sound.table.wellUsed
  rw [GpuSession.after_manager, GpuManager.table_calls, GpuSession.initial_manager] at wellUsed
  refine ⟨wellUsed.releases_le, ?_, refuses⟩
  intro earlier handle ret between call later split named
  rw [split] at wellUsed
  have isEvent : ∃ event, call.event = some event ∧
      (event = .release handle ∨ event = .use handle) := by
    rcases GdevCall.event_of_handle named with isRelease | isUse
    · exact ⟨_, isRelease, Or.inl rfl⟩
    · exact ⟨_, isUse, Or.inr rfl⟩
  rcases isEvent with ⟨event, ofCall, names⟩
  have ledger : gdevLedger (earlier ++ .gclose handle ret :: (between ++ call :: later)) =
      gdevLedger earlier ++
        .release handle :: (gdevLedger between ++ event :: gdevLedger later) := by
    have closing : (GdevCall.gclose handle ret).event = some (.release handle) := rfl
    simp only [gdevLedger, List.filterMap_append, List.filterMap_cons, ofCall, closing]
  rw [ledger] at wellUsed
  have acquired := wellUsed.acquired_of_permitted names
  rcases List.mem_filterMap.1 acquired with ⟨opening, member, isAcquire⟩
  cases opening with
  | gopen minor opened =>
      cases opened with
      | none => cases isAcquire
      | some other =>
          cases isAcquire
          exact ⟨minor, member⟩
  | _ => cases isAcquire

/-- Two devices are opened, the first one is closed twice over, and the session ends. -/
def twoDevices : List (GpuFault ℕ) :=
  [GpuAction.openDevice.fault 0 (some 7), GpuAction.openDevice.fault 0 (some 8),
    GpuAction.closeDevice.fault 0 none, GpuAction.closeDevice.fault 0 none,
    GpuAction.ioctl.fault 1 none, GpuAction.teardown.fault 0 none]

theorem not_opens_fault {action : GpuAction} (other : action ≠ .openDevice) (fd : ℤ)
    (gopen : Option ℕ) (handle : ℕ) : ¬(action.fault fd gopen).Opens handle := by
  apply GpuFault.not_opens_of_action (action.action_fault fd gopen)
  simpa using other

theorem opens_fault (fd : ℤ) (handle : ℕ) :
    (GpuAction.openDevice.fault fd (some handle)).Opens handle :=
  ⟨GpuAction.action_fault .openDevice fd (some handle), rfl⟩

theorem twoDevices_fresh :
    Runs.Throughout (gpuOnFault CtxStruct.zero) GpuSession.FreshOpen GpuManager.initial
      twoDevices := by
  have closing : ∀ {action : GpuAction}, action ≠ .openDevice → ∀ manager fd gopen,
      GpuSession.FreshOpen manager (action.fault fd gopen) := by
    intro action other manager fd gopen handle opens
    exact absurd opens (not_opens_fault other fd gopen handle)
  refine ⟨?_, ?_, closing (by decide) _ _ _, closing (by decide) _ _ _, closing (by decide) _ _ _,
    closing (by decide) _ _ _, trivial⟩
  · intro handle opens
    exact Set.notMem_empty handle
  · intro handle opens
    have second : handle = 8 := (Option.some.inj opens.2).symm
    rw [table_gpuOnFault_of_opens _ _ (opens_fault 0 7), second]
    intro isOpen
    have first : 8 ∈ insert 7 (∅ : Set ℕ) := isOpen
    simp at first

theorem twoDevices_room :
    Runs.Throughout GpuFault.countOpens GpuFault.HasRoom 0 twoDevices := by
  apply GpuFault.hasRoom_of_countP_le
  have few : twoDevices.countP GpuFault.isOpen ≤ 6 := List.countP_le_length
  have many : 6 ≤ gdevHandlesMax := by decide
  omega

theorem gpu_handles_wellUsed_twoDevices :
    Runs.Throughout (GpuSession.step CtxStruct.zero) (GpuSession.RefusesUnknown CtxStruct.zero)
      GpuSession.initial twoDevices :=
  (gpu_handles_wellUsed CtxStruct.zero twoDevices twoDevices_fresh twoDevices_room).2.2

/-! ## What a teardown leaves open -/

/-- A setup comes when the table holds no handle. -/
def SetupOnEmpty (manager : GpuManager Handle) (fault : GpuFault Handle) : Prop :=
  fault.action = some .setup → ∀ index, manager.gdevHandles index = none

namespace HandleTable

/-- Every handle that is open on the device is in a slot of the table. -/
def Covered (table : HandleTable Handle) : Prop :=
  ∀ handle ∈ table.openHandles, ∃ index, InTable index ∧ table.slots index = some handle

theorem Covered.teardown {table : HandleTable Handle} (covered : table.Covered) (ret : Handle → ℤ)
    (stored : List ℤ) :
    ((table.addCalls (table.held.map fun handle => .gclose handle (ret handle))).reset
      stored).openHandles = ∅ := by
  rw [openHandles_teardown, Set.eq_empty_iff_forall_notMem]
  rintro handle ⟨isOpen, notHeld⟩
  exact notHeld (mem_held.2 (covered handle isOpen))

theorem Covered.opened {table : HandleTable Handle} (covered : table.Covered) {opens : ℕ}
    (filled : table.Filled opens) (left : opens < gdevHandlesMax) (handle : Handle) (next : ℤ) :
    { (table.addCalls [.gopen 0 (some handle)]).store table.next (some handle) with
      next := next : HandleTable Handle }.Covered := by
  have counted := filled.counted.1
  intro other isOpen
  rw [openHandles_opened] at isOpen
  rcases isOpen with rfl | isOpen
  · exact ⟨table.next, ⟨by omega, by omega⟩, Function.update_self ..⟩
  · rcases covered other isOpen with ⟨index, inTable, holds⟩
    have differs : index ≠ table.next := by
      rintro rfl
      rw [filled.beyond _ (Or.inr le_rfl)] at holds
      cases holds
    exact ⟨index, inTable, (Function.update_of_ne differs ..).trans holds⟩

theorem Covered.closed {table : HandleTable Handle} (covered : table.Covered) {index : ℤ}
    {handle : Handle} (holds : table.slots index = some handle) (ret : ℤ) :
    ((table.addCalls [.gclose handle ret]).store index none).Covered := by
  intro other isOpen
  rw [openHandles_closed] at isOpen
  rcases covered other isOpen.1 with ⟨slot, inTable, holds'⟩
  have differs : slot ≠ index := by
    rintro rfl
    rw [holds] at holds'
    exact isOpen.2 (Option.some.inj holds').symm
  exact ⟨slot, inTable, (Function.update_of_ne differs ..).trans holds'⟩

/-- One fault keeps every open handle in the table, if a setup finds it empty. -/
theorem Serves.covered {table after : HandleTable Handle} {fault : GpuFault Handle} {opens : ℕ}
    (serves : table.Serves fault after) (filled : table.Filled opens) (covered : table.Covered)
    (room : GpuFault.HasRoom opens fault)
    (onEmpty : fault.action = some .setup → ∀ index, table.slots index = none) : after.Covered := by
  cases serves with
  | setup asked =>
      intro handle isOpen
      rcases covered handle isOpen with ⟨index, -, holds⟩
      rw [onEmpty asked index] at holds
      cases holds
  | teardown asked stored inTable =>
      intro handle isOpen
      rw [covered.teardown] at isOpen
      exact absurd isOpen (Set.notMem_empty handle)
  | opened asked handle ret => exact covered.opened filled (room handle ⟨asked, ret⟩) handle _
  | openFailed asked ret =>
      intro handle isOpen
      rw [openHandles_openFailed] at isOpen
      exact covered handle isOpen
  | closed asked handle found => exact covered.closed (find_eq_some_iff.1 found).2.2 _
  | used asked handle found made uses =>
      intro other isOpen
      rw [openHandles_used table uses] at isOpen
      exact covered other isOpen
  | refused asked notFound => exact covered
  | ignored asked => exact covered

theorem Serves.of_teardown {table after : HandleTable Handle} {fault : GpuFault Handle}
    (serves : table.Serves fault after) (asked : fault.action = some .teardown) :
    ∃ stored, after = (table.addCalls (table.held.map fun handle =>
      .gclose handle (fault.outcome.gclose handle).toInt)).reset stored := by
  cases serves with
  | teardown _ stored inTable => exact ⟨stored, rfl⟩
  | refused asked' notFound => rcases asked' with asked' | asked' <;> simp [asked'] at asked
  | ignored asked' => rcases asked' with asked' | asked' <;> simp [asked'] at asked
  | _ asked' => simp [asked'] at asked

theorem Serves.of_setup {table after : HandleTable Handle} {fault : GpuFault Handle}
    (serves : table.Serves fault after) (asked : fault.action = some .setup) :
    after = table.reset ((List.range gdevHandlesMax).map Int.ofNat) := by
  cases serves with
  | setup asked' => rfl
  | refused asked' notFound => rcases asked' with asked' | asked' <;> simp [asked'] at asked
  | ignored asked' => rcases asked' with asked' | asked' <;> simp [asked'] at asked
  | _ asked' => simp [asked'] at asked

end HandleTable

theorem covered_after (ctx : CtxStruct) {manager : GpuManager Handle} {opens : ℕ}
    (filled : manager.table.Filled opens) (covered : manager.table.Covered)
    {faults : List (GpuFault Handle)}
    (room : Runs.Throughout GpuFault.countOpens GpuFault.HasRoom opens faults)
    (onEmpty : Runs.Throughout (gpuOnFault ctx) SetupOnEmpty manager faults) :
    (Runs.after (gpuOnFault ctx) manager faults).table.Covered := by
  induction faults generalizing manager opens with
  | nil => exact covered
  | cons fault faults ih =>
      rcases room with ⟨roomNow, roomLater⟩
      rcases onEmpty with ⟨emptyNow, emptyLater⟩
      have serves := serves_gpuOnFault ctx manager fault
      exact ih (serves.filled filled roomNow) (serves.covered filled covered roomNow emptyNow)
        roomLater emptyLater

/-- Every open of a run is followed by a close of the handle that it returned. -/
def EveryOpenClosed (calls : List (GdevCall Handle)) : Prop :=
  ∀ earlier minor handle later, calls = earlier ++ .gopen minor (some handle) :: later →
    ∃ ret, .gclose handle ret ∈ later

theorem everyOpenClosed_of_live {calls : List (GdevCall Handle)}
    (closed : Ledger.live (gdevLedger calls) = ∅) : EveryOpenClosed calls := by
  intro earlier minor handle later split
  have ledger : gdevLedger calls =
      gdevLedger earlier ++ .acquire handle :: gdevLedger later := by
    rw [split, gdevLedger_append]
    rfl
  have notLive :
      handle ∉ Ledger.live (gdevLedger earlier ++ .acquire handle :: gdevLedger later) := by
    rw [← ledger, closed]
    exact Set.notMem_empty handle
  have released := Ledger.released_of_not_live notLive
  rcases List.mem_filterMap.1 released with ⟨call, member, isRelease⟩
  cases call with
  | gopen minor opened => cases opened <;> cases isRelease
  | gclose other ret =>
      cases isRelease
      exact ⟨ret, member⟩
  | _ => cases isRelease

/-- A teardown behind a run in which every setup found the table empty has closed all devices. -/
theorem gpu_teardown_closes (ctx : CtxStruct) (faults : List (GpuFault Handle))
    (room : Runs.Throughout GpuFault.countOpens GpuFault.HasRoom 0 faults)
    (onEmpty : Runs.Throughout (gpuOnFault ctx) SetupOnEmpty GpuManager.initial faults)
    (last : GpuFault Handle) (asked : last.action = some .teardown) :
    EveryOpenClosed (Runs.after (gpuOnFault ctx) GpuManager.initial (faults ++ [last])).calls := by
  have covered := covered_after ctx HandleTable.initial_filled
    (fun handle isOpen => absurd isOpen (Set.notMem_empty handle)) room onEmpty
  rw [Runs.after_append, Runs.after_cons, Runs.after_nil]
  generalize Runs.after (gpuOnFault ctx) GpuManager.initial faults = manager at covered ⊢
  rcases (serves_gpuOnFault ctx manager last).of_teardown asked with ⟨stored, ends⟩
  apply everyOpenClosed_of_live
  have closed := covered.teardown (fun handle => (last.outcome.gclose handle).toInt) stored
  rw [← ends] at closed
  exact closed

theorem not_setup_fault {action : GpuAction} (other : action ≠ .setup) (manager : GpuManager ℕ)
    (fd : ℤ) (gopen : Option ℕ) : SetupOnEmpty manager (action.fault fd gopen) := by
  intro asked
  rw [GpuAction.action_fault] at asked
  exact absurd (Option.some.inj asked) other

theorem gpu_teardown_closes_twoDevices :
    EveryOpenClosed (Runs.after (gpuOnFault CtxStruct.zero) GpuManager.initial
      ([GpuAction.setup.fault 0 none, GpuAction.openDevice.fault 0 (some 7),
        GpuAction.openDevice.fault 0 (some 8), GpuAction.closeDevice.fault 0 none] ++
        [GpuAction.teardown.fault 0 none])).calls := by
  apply gpu_teardown_closes
  · apply GpuFault.hasRoom_of_countP_le
    have few : [GpuAction.setup.fault 0 none, GpuAction.openDevice.fault 0 (some 7),
        GpuAction.openDevice.fault 0 (some 8), GpuAction.closeDevice.fault 0 none].countP
          GpuFault.isOpen ≤ 4 := List.countP_le_length
    have many : 4 ≤ gdevHandlesMax := by decide
    omega
  · exact ⟨fun _ _ => rfl, not_setup_fault (by decide) _ _ _, not_setup_fault (by decide) _ _ _,
      not_setup_fault (by decide) _ _ _, trivial⟩
  · exact GpuAction.action_fault .teardown 0 none

theorem HandleTable.held_of_cleared {table : HandleTable Handle}
    (cleared : ∀ index, table.slots index = none) : table.held = [] := by
  rw [List.eq_nil_iff_forall_not_mem]
  intro handle member
  rcases mem_held.1 member with ⟨index, -, holds⟩
  rw [cleared] at holds
  cases holds

/-- A setup behind an open leaves the device open: nothing closes it any more. -/
theorem calls_after_setup (ctx : CtxStruct) :
    (Runs.after (gpuOnFault ctx) GpuManager.initial
      ([GpuAction.openDevice.fault 0 (some 7), GpuAction.setup.fault 0 none] ++
        [GpuAction.teardown.fault 0 none])).calls = [.gopen 0 (some 7)] := by
  simp only [List.cons_append, List.nil_append, Runs.after_cons, Runs.after_nil]
  have opened := table_gpuOnFault_of_opens ctx GpuManager.initial (opens_fault 0 7)
  have filled := (serves_gpuOnFault ctx GpuManager.initial _).filled HandleTable.initial_filled
    (fun _ _ => by decide : GpuFault.HasRoom 0 (GpuAction.openDevice.fault 0 (some 7)))
  generalize gpuOnFault ctx GpuManager.initial _ = first at opened filled ⊢
  have cleared := (serves_gpuOnFault ctx first _).of_setup (GpuAction.action_fault .setup 0 none)
  generalize gpuOnFault ctx first _ = second at cleared ⊢
  rcases (serves_gpuOnFault ctx second _).of_teardown
    (GpuAction.action_fault .teardown 0 none) with ⟨stored, ends⟩
  have empty : second.table.held = [] := by
    apply HandleTable.held_of_cleared
    rw [cleared]
    exact filled.slots_reset _
  have same : second.table.calls = [.gopen 0 (some 7)] := by
    rw [cleared, HandleTable.reset, opened]
    rfl
  calc
    _ = second.table.calls ++ [] := by
        rw [← GpuManager.table_calls, ends, empty]
        rfl
    _ = [.gopen 0 (some 7)] := by rw [same, List.append_nil]

theorem gpu_setup_leaves_device_open :
    ¬EveryOpenClosed (Runs.after (gpuOnFault CtxStruct.zero) GpuManager.initial
      ([GpuAction.openDevice.fault 0 (some 7), GpuAction.setup.fault 0 none] ++
        [GpuAction.teardown.fault 0 none])).calls := by
  rw [calls_after_setup]
  intro closed
  rcases closed [] 0 7 [] rfl with ⟨ret, member⟩
  cases member

end Acai
