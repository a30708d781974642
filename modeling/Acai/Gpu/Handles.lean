import Acai.Gpu.Comm
import Acai.Lib.Runs

/-!
# The handle table of the GPU manager

The manager hands out the slots of `gdev_handles` by a counter, and the table is
its only record of the device contexts that are open. This file abstracts the
manager to that table, the counter, the stores that were made to the table and
the calls of the device library, says once what a fault can do to them
(`HandleTable.Serves`), and derives what holds over every sequence of faults.

The counter is given back by no close, only by a setup or a teardown, and no open
compares it with the size of the table. A setup clears the table without closing
what it holds.
-/

namespace Acai

variable {Handle : Type*}

/-! ## The table and what a fault can do to it -/

structure HandleTable (Handle : Type*) where
  slots : ℤ → Option Handle
  next : ℤ
  stores : List ℤ
  calls : List (GdevCall Handle)

namespace HandleTable

def store (table : HandleTable Handle) (index : ℤ) (handle : Option Handle) : HandleTable Handle :=
  { table with
    slots := Function.update table.slots index handle
    stores := table.stores ++ [index] }

def addCalls (table : HandleTable Handle) (calls : List (GdevCall Handle)) : HandleTable Handle :=
  { table with calls := table.calls ++ calls }

def find (table : HandleTable Handle) (index : ℤ) : Option Handle :=
  if index < 0 ∨ table.next ≤ index then none else table.slots index

theorem find_eq_some_iff {table : HandleTable Handle} {index : ℤ} {handle : Handle} :
    table.find index = some handle ↔
      0 ≤ index ∧ index < table.next ∧ table.slots index = some handle := by
  rw [find, Option.ite_none_left_eq_some, not_or, not_lt, not_le, and_assoc]

def InTable (index : ℤ) : Prop := 0 ≤ index ∧ index < gdevHandlesMax

instance (index : ℤ) : Decidable (InTable index) := inferInstanceAs (Decidable (_ ∧ _))

/-- The table with every slot cleared and the counter back at zero. -/
def reset (table : HandleTable Handle) (stored : List ℤ) : HandleTable Handle :=
  { table with
    slots := fun index => if InTable index then none else table.slots index
    next := 0
    stores := table.stores ++ stored }

/-- The handles in the slots, in their order. -/
@[irreducible]
def held (table : HandleTable Handle) : List Handle :=
  (List.range gdevHandlesMax).filterMap fun index : ℕ => table.slots index

end HandleTable

/-- The handle that a call hands to the device library. -/
def GdevCall.handle : GdevCall Handle → Option Handle
  | gopen _ _ => none
  | gclose handle _ | gmalloc handle _ _ | gfree handle _ _ | gmemcpyToDevice handle _ _ _
  | gmemcpyFromDevice handle _ _ _ | glaunch handle _ _ _ _ | gsync handle _ _ _
  | gbarrier handle _ | gquery handle _ _ _ | gtune handle _ _ _ | gvirtget handle _ _ =>
      some handle

/-- A call that works on an open device, and neither opens nor closes one. -/
def GdevCall.Uses (call : GdevCall Handle) (handle : Handle) : Prop :=
  call.handle = some handle ∧ ∀ ret, call ≠ .gclose handle ret

/-- What one fault does to the table, with the condition under which it does so. -/
inductive HandleTable.Serves (table : HandleTable Handle) (fault : GpuFault Handle) :
    HandleTable Handle → Prop
  | setup (asked : fault.action = some .setup) :
      Serves table fault (table.reset ((List.range gdevHandlesMax).map Int.ofNat))
  | teardown (asked : fault.action = some .teardown) (stored : List ℤ)
      (inTable : ∀ index ∈ stored, InTable index) :
      Serves table fault
        ((table.addCalls (table.held.map fun handle =>
          .gclose handle (fault.outcome.gclose handle).toInt)).reset stored)
  | opened (asked : fault.action = some .openDevice) (handle : Handle)
      (ret : fault.outcome.gopen = some handle) :
      Serves table fault
        { (table.addCalls [.gopen 0 (some handle)]).store table.next (some handle) with
          next := i32 (table.next + 1) }
  | openFailed (asked : fault.action = some .openDevice) (ret : fault.outcome.gopen = none) :
      Serves table fault (table.addCalls [.gopen 0 none])
  | closed (asked : fault.action = some .closeDevice) (handle : Handle)
      (found : table.find fault.fd = some handle) :
      Serves table fault
        ((table.addCalls [.gclose handle (fault.outcome.gclose handle).toInt]).store fault.fd none)
  | used (asked : fault.action = some .ioctl) (handle : Handle)
      (found : table.find fault.fd = some handle) (made : List (GdevCall Handle))
      (uses : ∀ call ∈ made, call.Uses handle) :
      Serves table fault (table.addCalls made)
  | refused (asked : fault.action = some .closeDevice ∨ fault.action = some .ioctl)
      (notFound : table.find fault.fd = none) :
      Serves table fault table
  | ignored (asked : fault.action = some .ping ∨ fault.action = none) :
      Serves table fault table

namespace GpuManager

def table (manager : GpuManager Handle) : HandleTable Handle where
  slots := manager.gdevHandles
  next := manager.gdevHandleI
  stores := manager.stores
  calls := manager.calls

variable (manager : GpuManager Handle)

theorem table_next : manager.table.next = manager.gdevHandleI := rfl

theorem table_stores : manager.table.stores = manager.stores := rfl

theorem table_calls : manager.table.calls = manager.calls := rfl

@[simp]
theorem table_setPage (page : ByteMem) : (manager.setPage page).table = manager.table := rfl

@[simp]
theorem table_addHeap (events : List HeapEvent) : (manager.addHeap events).table = manager.table :=
  rfl

@[simp]
theorem table_setRetAndErrNoDirect (ret : ℤ) :
    (manager.setRetAndErrNoDirect ret).table = manager.table := rfl

@[simp]
theorem table_addCall (call : GdevCall Handle) :
    (manager.addCall call).table = manager.table.addCalls [call] := rfl

@[simp]
theorem table_storeHandle (index : ℤ) (handle : Option Handle) :
    (manager.storeHandle index handle).table = manager.table.store index handle := rfl

theorem table_restart :
    ({ manager with gdevHandleI := 0 } : GpuManager Handle).table =
      { manager.table with next := 0 } := rfl

theorem held_table :
    manager.table.held = (List.range gdevHandlesMax).filterMap fun slot : ℕ =>
      manager.gdevHandles slot := by
  unfold HandleTable.held
  rfl

theorem find_table (index : ℤ) : manager.table.find index = manager.utilGetGdevHandle index := rfl

end GpuManager

namespace HandleTable

/-- The work of one gdev command on an open device. -/
def Used (before after : HandleTable Handle) (handle : Handle) : Prop :=
  ∃ made, (∀ call ∈ made, call.Uses handle) ∧ after = before.addCalls made

theorem Used.of_eq {before after : HandleTable Handle} (handle : Handle) (same : after = before) :
    Used before after handle :=
  ⟨[], by simp, by simp [same, addCalls]⟩

theorem used_addCalls (table : HandleTable Handle) {handle : Handle} {call : GdevCall Handle}
    (uses : call.Uses handle) : Used table (table.addCalls [call]) handle :=
  ⟨[call], by simpa using uses, rfl⟩

end HandleTable

section Commands

variable (ctx : CtxStruct) (outcome : GpuOutcome Handle) (handle : Handle)
  (manager : GpuManager Handle)

theorem table_utilCopyToFromTarget (toTarget : Bool) (nbytesTot : ℕ) (pfnBuf : ℕ → ℕ) (pfnNum : ℕ)
    (toDeviceDmaBuf : ByteMem) :
    (utilCopyToFromTarget ctx outcome toTarget nbytesTot pfnBuf pfnNum toDeviceDmaBuf
      manager).2.2.table = manager.table := by
  unfold utilCopyToFromTarget
  split
  · rfl
  · dsimp only
    split
    · cases toTarget <;> rfl
    · rfl

theorem used_gpuIoctlGmemcpyToDev :
    manager.table.Used (gpuIoctlGmemcpyToDev ctx outcome handle manager).2.table handle := by
  have copied := table_utilCopyToFromTarget ctx outcome manager false
    (manager.page.get FhGdevIoctl.dmaSize)
    (fun index => manager.page.get (FhGdevIoctl.bufPfn index))
    (manager.page.get FhGdevIoctl.bufPfnNum) ByteMem.zero
  unfold gpuIoctlGmemcpyToDev utilCopyFromTarget
  dsimp only
  generalize utilCopyToFromTarget _ _ _ _ _ _ _ _ = result at copied ⊢
  rcases result with ⟨ret, targetBuf, after⟩
  cases targetBuf with
  | none => exact .of_eq handle copied
  | some targetBuf =>
      rw [GpuManager.table_addHeap, GpuManager.table_addCall, copied]
      exact HandleTable.used_addCalls _ ⟨rfl, by simp⟩

theorem used_gpuIoctlGmemcpyFromDev :
    manager.table.Used (gpuIoctlGmemcpyFromDev ctx outcome handle manager).2.table handle := by
  unfold gpuIoctlGmemcpyFromDev utilCopyToTarget
  split
  · exact .of_eq handle rfl
  · dsimp only
    split
    · exact HandleTable.used_addCalls _ ⟨rfl, by simp⟩
    · simp only [GpuManager.table_addHeap, table_utilCopyToFromTarget, GpuManager.table_addCall]
      exact HandleTable.used_addCalls _ ⟨rfl, by simp⟩

theorem used_gpuIoctlLaunch :
    manager.table.Used (gpuIoctlLaunch outcome handle manager).2.table handle := by
  unfold gpuIoctlLaunch
  dsimp only
  split
  · exact .of_eq handle rfl
  · exact HandleTable.used_addCalls _ ⟨rfl, by simp⟩

/-- Every command works on the device of the handle, and on the table not at all. -/
theorem used_gpuIoctlCommand (command : Option GdevCommand) :
    manager.table.Used (gpuIoctlCommand ctx outcome handle manager command).2.table handle := by
  cases command with
  | none => exact .of_eq handle rfl
  | some command =>
      cases command with
      | gmemcpyToDevice => exact used_gpuIoctlGmemcpyToDev ctx outcome handle manager
      | gmemcpyFromDevice => exact used_gpuIoctlGmemcpyFromDev ctx outcome handle manager
      | glaunch => exact used_gpuIoctlLaunch outcome handle manager
      | _ => exact HandleTable.used_addCalls _ ⟨rfl, by simp⟩

end Commands

section Faults

/-- The slots with `count` of them cleared from `first` on. -/
def clearSlots (slots : ℤ → Option Handle) (first count : ℕ) : ℤ → Option Handle :=
  fun index => if (first : ℤ) ≤ index ∧ index < first + count then none else slots index

theorem clearSlots_zero (slots : ℤ → Option Handle) (first : ℕ) :
    clearSlots slots first 0 = slots := by
  funext index
  unfold clearSlots
  rw [if_neg (by omega)]

theorem clearSlots_succ (slots : ℤ → Option Handle) (first count : ℕ) :
    clearSlots (Function.update slots first none) (first + 1) count =
      clearSlots slots first (count + 1) := by
  funext index
  unfold clearSlots
  by_cases same : index = first
  · subst same
    simp
  · rw [Function.update_of_ne same]
    apply if_congr _ rfl rfl
    push_cast
    omega

theorem clearSlots_succ_of_none {slots : ℤ → Option Handle} {first : ℕ}
    (empty : slots first = none) (count : ℕ) :
    clearSlots slots (first + 1) count = clearSlots slots first (count + 1) := by
  rw [← clearSlots_succ, ← empty, Function.update_eq_self]

theorem clearSlots_all (slots : ℤ → Option Handle) :
    clearSlots slots 0 gdevHandlesMax =
      fun index => if HandleTable.InTable index then none else slots index := by
  funext index
  unfold clearSlots HandleTable.InTable
  apply if_congr _ rfl rfl
  omega

theorem table_setupLoop (count index : ℕ) (manager : GpuManager Handle) :
    (setupLoop count index manager).table =
      { manager.table with
        slots := clearSlots manager.gdevHandles index count
        stores := manager.stores ++ (List.range' index count).map Int.ofNat } := by
  induction count generalizing index manager with
  | zero => simp [setupLoop, GpuManager.table, clearSlots_zero]
  | succ count ih =>
      rw [setupLoop, ih]
      simp [GpuManager.table, GpuManager.storeHandle, List.range'_succ, clearSlots_succ]

/-- The closes of the handles in `count` slots from `first` on. -/
def closesOf (outcome : GpuOutcome Handle) (slots : ℤ → Option Handle) (first count : ℕ) :
    List (GdevCall Handle) :=
  ((List.range' first count).filterMap fun slot : ℕ => slots slot).map fun handle =>
    .gclose handle (outcome.gclose handle).toInt

theorem closesOf_succ_of_none (outcome : GpuOutcome Handle) {slots : ℤ → Option Handle} {first : ℕ}
    (empty : slots first = none) (count : ℕ) :
    closesOf outcome slots first (count + 1) = closesOf outcome slots (first + 1) count := by
  simp [closesOf, List.range'_succ, empty]

-- The loop clears each slot behind it: the later ones are still as it found them.
theorem closesOf_succ_of_some (outcome : GpuOutcome Handle) {slots : ℤ → Option Handle} {first : ℕ}
    {handle : Handle} (held : slots first = some handle) (count : ℕ) :
    closesOf outcome slots first (count + 1) =
      .gclose handle (outcome.gclose handle).toInt ::
        closesOf outcome (Function.update slots first none) (first + 1) count := by
  have later : (List.range' (first + 1) count).filterMap (fun slot : ℕ => slots slot) =
      (List.range' (first + 1) count).filterMap
        fun slot : ℕ => Function.update slots first none slot := by
    apply List.filterMap_congr
    intro slot member
    have behind := (List.mem_range'_1.1 member).1
    exact (Function.update_of_ne (by omega) _ _).symm
  simp [closesOf, List.range'_succ, held, later]

theorem table_teardownLoop (outcome : GpuOutcome Handle) (count index : ℕ)
    (manager : GpuManager Handle) (isReset : count = 0 → manager.gdevHandleI = 0) :
    ∃ stored : List ℤ, (∀ slot ∈ stored, (index : ℤ) ≤ slot ∧ slot < index + count) ∧
      (teardownLoop outcome count index manager).table =
        { slots := clearSlots manager.gdevHandles index count
          next := 0
          stores := manager.stores ++ stored
          calls := manager.calls ++ closesOf outcome manager.gdevHandles index count } := by
  induction count generalizing index manager with
  | zero =>
      refine ⟨[], by simp, ?_⟩
      simp [teardownLoop, GpuManager.table, clearSlots_zero, closesOf, isReset rfl]
  | succ count ih =>
      rw [teardownLoop]
      cases slot : manager.gdevHandles index with
      | none =>
          rcases ih (index + 1) { manager with gdevHandleI := 0 } (fun _ => rfl) with
            ⟨stored, within, ends⟩
          refine ⟨stored, fun slot member => ?_, ?_⟩
          · have bounds := within slot member
            omega
          · dsimp only at ends ⊢
            rw [ends, clearSlots_succ_of_none slot, closesOf_succ_of_none outcome slot]
      | some handle =>
          rcases ih (index + 1)
            { (manager.addCall (.gclose handle (outcome.gclose handle).toInt)).storeHandle index
                none with gdevHandleI := 0 } (fun _ => rfl) with ⟨stored, within, ends⟩
          refine ⟨(index : ℤ) :: stored, fun slot member => ?_, ?_⟩
          · rcases List.mem_cons.1 member with rfl | member
            · omega
            · have bounds := within slot member
              omega
          · dsimp only [GpuManager.storeHandle, GpuManager.addCall] at ends ⊢
            rw [ends, clearSlots_succ, closesOf_succ_of_some outcome slot]
            simp

theorem serves_faultSetup (fault : GpuFault Handle) (manager : GpuManager Handle)
    (asked : fault.action = some .setup) :
    manager.table.Serves fault (faultSetup manager).table := by
  have loop := table_setupLoop gdevHandlesMax 0 manager
  rw [← List.range_eq_range', clearSlots_all] at loop
  rw [faultSetup, GpuManager.table_setRetAndErrNoDirect, GpuManager.table_setPage,
    GpuManager.table_restart, loop]
  exact .setup asked

theorem serves_faultTeardown (fault : GpuFault Handle) (manager : GpuManager Handle)
    (asked : fault.action = some .teardown) :
    manager.table.Serves fault (faultTeardown fault.outcome manager).table := by
  rcases table_teardownLoop fault.outcome gdevHandlesMax 0 manager
    (fun empty => absurd empty (by decide)) with
    ⟨stored, within, ends⟩
  rw [clearSlots_all, closesOf, ← List.range_eq_range', ← manager.held_table] at ends
  rw [faultTeardown, ends]
  apply HandleTable.Serves.teardown asked stored
  intro slot member
  have bounds := within slot member
  exact ⟨by omega, by omega⟩

theorem serves_faultOpenDev (fault : GpuFault Handle) (manager : GpuManager Handle)
    (asked : fault.action = some .openDevice) :
    manager.table.Serves fault (faultOpenDev fault.outcome manager).table := by
  unfold faultOpenDev
  cases ret : fault.outcome.gopen with
  | none => exact .openFailed asked ret
  | some handle => exact .opened asked handle ret

theorem serves_faultCloseDev (fault : GpuFault Handle) (manager : GpuManager Handle)
    (asked : fault.action = some .closeDevice) (entered : manager.page = fault.page) :
    manager.table.Serves fault (faultCloseDev fault.outcome manager).table := by
  rw [faultCloseDev, entered, ← GpuFault.fd]
  cases found : manager.utilGetGdevHandle fault.fd with
  | none =>
      rw [faultCloseHandle, GpuManager.table_setRetAndErrNoDirect]
      exact .refused (Or.inl asked) ((manager.find_table fault.fd).trans found)
  | some handle =>
      rw [faultCloseHandle, GpuManager.table_setRetAndErrNoDirect, GpuManager.table_storeHandle,
        GpuManager.table_addCall]
      exact .closed asked handle ((manager.find_table fault.fd).trans found)

theorem serves_faultIoctl (ctx : CtxStruct) (fault : GpuFault Handle) (manager : GpuManager Handle)
    (asked : fault.action = some .ioctl) (entered : manager.page = fault.page) :
    manager.table.Serves fault (faultIoctl ctx fault.outcome manager).table := by
  rw [faultIoctl, GpuManager.table_setRetAndErrNoDirect, gpuIoctl, entered, ← GpuFault.fd]
  cases found : manager.utilGetGdevHandle fault.fd with
  | none => exact .refused (Or.inr asked) ((manager.find_table fault.fd).trans found)
  | some handle =>
      rcases used_gpuIoctlCommand ctx fault.outcome handle manager
        (GdevCommand.ofCode (manager.page.get FhGdevIoctl.gdevCommand)) with ⟨made, uses, ends⟩
      rw [gpuIoctlHandle, ends]
      exact .used asked handle ((manager.find_table fault.fd).trans found) made uses

namespace GpuManager

/-- The manager as it enters its handler. -/
def enter (manager : GpuManager Handle) (fault : GpuFault Handle) : GpuManager Handle :=
  { manager with page := fault.page, target := fault.target }

end GpuManager

theorem gpuOnFault_of_action {ctx : CtxStruct} {manager : GpuManager Handle}
    {fault : GpuFault Handle} {action : GpuAction} (asked : fault.action = some action) :
    gpuOnFault ctx manager fault =
      (gpuHandleAction ctx fault.outcome (manager.enter fault) (some action)).setPage
        ((gpuHandleAction ctx fault.outcome (manager.enter fault) (some action)).page.set
          FaultData.turn FhTurn.guest.code) := by
  unfold GpuFault.action at asked
  unfold gpuOnFault
  split at asked
  · rename_i hostTurn
    rw [if_neg (by simpa using hostTurn), asked]
    rfl
  · cases asked

theorem table_gpuOnFault_of_none {ctx : CtxStruct} {manager : GpuManager Handle}
    {fault : GpuFault Handle} (asked : fault.action = none) :
    (gpuOnFault ctx manager fault).table = manager.table := by
  unfold GpuFault.action at asked
  unfold gpuOnFault
  split at asked
  · rename_i hostTurn
    rw [if_neg (by simpa using hostTurn), asked]
    rfl
  · rename_i otherTurn
    rw [if_pos otherTurn]
    rfl

theorem serves_gpuOnFault (ctx : CtxStruct) (manager : GpuManager Handle)
    (fault : GpuFault Handle) :
    manager.table.Serves fault (gpuOnFault ctx manager fault).table := by
  cases asked : fault.action with
  | none =>
      rw [table_gpuOnFault_of_none asked]
      exact .ignored (Or.inr asked)
  | some action =>
      rw [gpuOnFault_of_action asked, GpuManager.table_setPage]
      cases action with
      | setup => exact serves_faultSetup fault (manager.enter fault) asked
      | teardown => exact serves_faultTeardown fault (manager.enter fault) asked
      | openDevice => exact serves_faultOpenDev fault (manager.enter fault) asked
      | closeDevice => exact serves_faultCloseDev fault (manager.enter fault) asked rfl
      | ioctl => exact serves_faultIoctl ctx fault (manager.enter fault) asked rfl
      | ping => exact .ignored (Or.inl asked)

end Faults

end Acai
