import Acai.Escape.Layout
import Acai.Lib.EarlyReturn

/-!
# Mapping pages of one process into another

The fixup module maps pages of the calling process over listed pages of a target
process. `fops_ioctl_do_map` looks up the source once, and then goes through the list:
it looks up the page, makes its area writable and executable, looks it up again,
clears its entry in the page table and remaps it. Pages that follow one another are
made executable by one call for the whole range, other pages by one call each.

Every lookup is made under the read lock of the address space, and a lookup that
fails returns without unlocking. `protect_pid` drops a user of the address space of
another process, while `get_mm` has not taken one. The locks and users thus come out
as they were exactly if no lookup that is reached fails and no call for another
process is reached (`keepsBalance_iff`).

The kernel's part is a parameter: the tasks behind a process id, the areas that
`find_vma` finds, the entries of the page tables and the results of the two calls that
change a mapping. Each answer may be another one in each iteration.
-/

namespace Acai

/-! ## The request and the kernel -/

/-- `fh_fixup_map_t` -/
structure FhFixupMap where
  srcBaseAddr : UInt64
  pagesNum : UInt64
  targetPid : Int32
  targetPages : UInt64
  handle : UInt64
  deriving DecidableEq

/-- The address spaces of a task; `none` is a null pointer. -/
structure Task (Mm : Type) where
  mm : Option Mm
  activeMm : Option Mm

structure VmArea where
  vmStart : UInt64
  vmEnd : UInt64

/-- What one area takes over from another. -/
structure VmAreaFields where
  vmFlags : UInt64
  vmPageProt : UInt64
  deriving DecidableEq

structure VmTargetEntry where
  pteVal : UInt64
  addr : UInt64
  pid : Int32
  deriving DecidableEq

/-- A call of `fops_ioctl_do_map`, and what the kernel does in it. A function gives the answers in
the iterations of the loop. -/
structure MapCall (Mm : Type) where
  /-- The process id and the address space of the caller. -/
  pid : Int32
  mm : Mm
  request : FhFixupMap
  pagesAlloc : Bool
  requestCopied : Bool
  addrsAlloc : Bool
  addrsCopied : Bool
  /-- The contents of `target_addr_buf`. -/
  targetAddrs : ℕ → UInt64
  /-- The address of `target_entries`. -/
  entriesAlloc : Option UInt64
  targetTask : Option (Task Mm)
  protectTask : ℕ → Option (Task Mm)
  srcVma : Option VmArea
  targetVma : ℕ → Option VmArea
  /-- The answers to the lookups behind `protect_pid`. -/
  targetVmaAgain : ℕ → Option VmArea
  mprotect : ℕ → Int32
  targetPte : ℕ → Option UInt64
  /-- The entries of the source, as they are when the entry of the target has been cleared. -/
  srcPte : ℕ → Option UInt64
  srcFields : ℕ → VmAreaFields
  remapPfnRange : ℕ → Int32
  replyCopied : Bool

inductive MapAct (Mm : Type) where
  | readLock (mm : Mm)
  | readUnlock (mm : Mm)
  | mmput (mm : Mm)
  | mprotect (mm : Mm) (addr len prot : UInt64)
  | saveEntry (index : ℕ) (entry : VmTargetEntry)
  | clearPte (mm : Mm) (addr : UInt64)
  | setVma (mm : Mm) (addr : UInt64) (fields : VmAreaFields)
  | remapPfnRange (mm : Mm) (addr pfn size prot : UInt64)
  | invalidateTlb (addr : UInt64)
  | copyToUser (request : FhFixupMap)
  deriving DecidableEq

/-- `PROT_EXEC | PROT_READ | PROT_WRITE` -/
def protAll : UInt64 := 4 ||| 1 ||| 2

/-- `VM_SHARED | VM_MAYWRITE` -/
def sharedFlags : UInt64 := 0x8 ||| 0x20

def pageSizeWord : UInt64 := UInt64.ofNat pageSize

/-- Every page begins where the one before it in the list ends. -/
def pagesContinuous (pageAddrs : ℕ → UInt64) : ℕ → Bool
  | 0 | 1 => true
  | num + 2 =>
      pagesContinuous pageAddrs (num + 1) && pageAddrs num + pageSizeWord == pageAddrs (num + 1)

def VmArea.Holds (vma : Option VmArea) (addr : UInt64) : Prop :=
  ∃ found ∈ vma, ¬(found.vmEnd ≤ addr ∨ addr < found.vmStart)

instance (vma : Option VmArea) (addr : UInt64) : Decidable (VmArea.Holds vma addr) :=
  match vma with
  | none => .isFalse (by rintro ⟨_, ⟨⟩, _⟩)
  | some found =>
      decidable_of_iff (¬(found.vmEnd ≤ addr ∨ addr < found.vmStart))
        ⟨fun inside => ⟨found, rfl, inside⟩, by rintro ⟨_, ⟨⟩, inside⟩; exact inside⟩

/-- The body of the loop keeps these from one iteration to the next. -/
structure MapVars where
  targetVmaSplit : Bool
  ret : ℤ

/-! ## The ioctl -/

namespace MapCall

variable {Mm : Type} (call : MapCall Mm)

/-- `get_mm` for the process id of the request, and the task that the kernel finds for it. -/
def getMm (found : Option (Task Mm)) : Option Mm :=
  if call.request.targetPid ≠ call.pid then
    found.bind fun task => if task.mm.isSome then task.mm else task.activeMm
  else some call.mm

def targetMm : Option Mm :=
  if call.request.targetPid ≠ call.pid then call.getMm call.targetTask else some call.mm

/-- `protect_pid` in the iteration `index`. The result is what it returns to the loop. -/
def protectPid (index : ℕ) (addr len prot : UInt64) : Routine (MapAct Mm) ℤ ℤ :=
  if call.request.targetPid = call.pid then do
    Routine.act (.mprotect call.mm addr len prot)
    pure (call.mprotect index).toInt
  else
    match call.getMm (call.protectTask index) with
    | none => pure (-Errno.EFAULT.code)
    | some mm => do
        Routine.act (.mprotect mm addr len prot)
        Routine.act (.mmput mm)
        pure (call.mprotect index).toInt

/-- `resolve_vm`, whose walk through the page table ends at `pte`. -/
def resolveVm (mm : Mm) (pte : Option UInt64) : Routine (MapAct Mm) ℤ (Option UInt64) := do
  Routine.act (.readLock mm)
  Routine.act (.readUnlock mm)
  pure pte

/-- A lookup of a page of the target, with its checks. -/
def lookupTarget (target : Mm) (vma : Option VmArea) (addr : UInt64) :
    Routine (MapAct Mm) ℤ Unit := do
  Routine.act (.readLock target)
  Routine.leaveIf (¬VmArea.Holds vma addr) (-Errno.EFAULT.code)
  Routine.act (.readUnlock target)

def targetContiguous : Bool := pagesContinuous call.targetAddrs call.request.pagesNum.toNat

def targetSize : UInt64 := call.request.pagesNum * pageSizeWord

/-- The area is split once if the target is contiguous, and for each page otherwise. -/
def splitTarget (index : ℕ) (vars : MapVars) : Routine (MapAct Mm) ℤ Unit :=
  if call.targetContiguous = false ∨ vars.targetVmaSplit = false then do
    let ret ← call.protectPid index (call.targetAddrs index) call.targetSize protAll
    Routine.leaveIf (ret ≠ 0) (-Errno.EFAULT.code)
  else pure ()

/-- What an iteration does once the page has been found for the second time. -/
def remapPage (target : Mm) (index : ℕ) : Routine (MapAct Mm) ℤ MapVars := do
  let addr := call.targetAddrs index
  let fields : VmAreaFields :=
    { call.srcFields index with vmFlags := (call.srcFields index).vmFlags ||| sharedFlags }
  let targetPte ← resolveVm target (call.targetPte index)
  let targetPte ← Routine.orLeave targetPte (-Errno.ENXIO.code)
  let srcPte ← resolveVm call.mm (call.srcPte index)
  let srcPte ← Routine.orLeave srcPte (-Errno.ENXIO.code)
  Routine.act (.saveEntry index ⟨targetPte, addr, call.request.targetPid⟩)
  Routine.act (.clearPte target addr)
  Routine.act (.setVma target addr fields)
  Routine.act (.remapPfnRange target addr (srcPte >>> 12) pageSizeWord fields.vmPageProt)
  Routine.leaveIf ((call.remapPfnRange index).toInt < 0) (call.remapPfnRange index).toInt
  Routine.act (.invalidateTlb addr)
  pure ⟨true, (call.remapPfnRange index).toInt⟩

/-- An iteration of the loop. -/
def mapPage (target : Mm) (index : ℕ) (vars : MapVars) : Routine (MapAct Mm) ℤ MapVars := do
  lookupTarget target (call.targetVma index) (call.targetAddrs index)
  call.splitTarget index vars
  lookupTarget target (call.targetVmaAgain index) (call.targetAddrs index)
  call.remapPage target index

/-- The part of `fops_ioctl_do_map` before the first lock: the address space of the target and the
address of the table for its entries. -/
def checkRequest : Routine (MapAct Mm) ℤ (Mm × UInt64) := do
  Routine.leaveIf (call.pagesAlloc = false) (-Errno.ENOMEM.code)
  Routine.leaveIf (call.requestCopied = false) (-Errno.EFAULT.code)
  Routine.leaveIf (call.request.targetPages = 0 ∨ call.request.pagesNum = 0 ∨
    call.request.srcBaseAddr = 0) (-Errno.EINVAL.code)
  Routine.leaveIf (call.addrsAlloc = false) (-Errno.ENOMEM.code)
  Routine.leaveIf (call.addrsCopied = false) (-Errno.EFAULT.code)
  let entries ← Routine.orLeave call.entriesAlloc (-Errno.ENOMEM.code)
  let target ← Routine.orLeave call.targetMm (-Errno.EFAULT.code)
  pure (target, entries)

/-- `fops_ioctl_do_map` from the first lock on. -/
def mapPages (target : Mm) (entries : UInt64) : Routine (MapAct Mm) ℤ ℤ := do
  Routine.act (.readLock call.mm)
  Routine.leaveIf (call.srcVma.isNone = true) (-Errno.EFAULT.code)
  Routine.act (.readUnlock call.mm)
  let vars ← Routine.loop (call.mapPage target) ⟨false, 0⟩ call.request.pagesNum.toNat
  Routine.leaveIf (call.replyCopied = false) (-Errno.EFAULT.code)
  Routine.act (.copyToUser { call.request with handle := entries })
  pure vars.ret

def fopsIoctlDoMap : Routine (MapAct Mm) ℤ ℤ := do
  let checked ← call.checkRequest
  call.mapPages checked.1 checked.2

end MapCall

/-! ## Locks and users -/

namespace MapAct

variable {Mm : Type}

/-- What an act adds to a count of locks and of users that are gone. -/
def owed (lock drop : Mm → ℤ) : MapAct Mm → ℤ
  | .readLock mm => lock mm
  | .readUnlock mm => -lock mm
  | .mmput mm => drop mm
  | _ => 0

variable [DecidableEq Mm]

def one (mm other : Mm) : ℤ := if other = mm then 1 else 0

/-- How often the lock of an address space is held. -/
def lockHeld (mm : Mm) : MapAct Mm → ℤ := owed (one mm) fun _ => 0

/-- How many users an address space has lost. -/
def usersLost (mm : Mm) : MapAct Mm → ℤ := owed (fun _ => 0) (one mm)

theorem one_nonneg (mm other : Mm) : 0 ≤ one mm other := by
  rw [one]
  split <;> decide

@[simp]
theorem one_eq_zero_iff {mm other : Mm} : one mm other = 0 ↔ other ≠ mm := by
  rw [one]
  split <;> simp_all

end MapAct

namespace MapCall

variable {Mm : Type} [DecidableEq Mm] (call : MapCall Mm)

/-- The locks of the source and of the target are not held at the end of the call, and the target
has its users. -/
structure KeepsBalance : Prop where
  sourceLock : call.fopsIoctlDoMap.total (MapAct.lockHeld call.mm) = 0
  targetLock : ∀ target, call.targetMm = some target →
    call.fopsIoctlDoMap.total (MapAct.lockHeld target) = 0
  targetUsers : ∀ target, call.targetMm = some target →
    call.fopsIoctlDoMap.total (MapAct.usersLost target) = 0

end MapCall

/-! ## One iteration -/

namespace MapCall

variable {Mm : Type} (call : MapCall Mm)

/-- The request is in order and there is memory for it. -/
def Admits : Prop :=
  call.pagesAlloc = true ∧ call.requestCopied = true ∧
    (call.request.targetPages ≠ 0 ∧ call.request.pagesNum ≠ 0 ∧ call.request.srcBaseAddr ≠ 0) ∧
    call.addrsAlloc = true ∧ call.addrsCopied = true ∧ call.entriesAlloc ≠ none

/-- The first lookup of a page finds it. -/
def Finds (index : ℕ) : Prop := VmArea.Holds (call.targetVma index) (call.targetAddrs index)

/-- The lookup of a page behind `protect_pid` finds it. -/
def FindsAgain (index : ℕ) : Prop :=
  VmArea.Holds (call.targetVmaAgain index) (call.targetAddrs index)

/-- The protection is changed in this iteration. -/
def Splits (index : ℕ) : Prop := call.targetContiguous = false ∨ index = 0

/-- The address space that `protect_pid` gets for another process. -/
def protectMm (index : ℕ) : Option Mm :=
  if call.request.targetPid = call.pid then none else call.getMm (call.protectTask index)

/-- What `protect_pid` returns is 0. -/
def Protects (index : ℕ) : Prop :=
  (call.request.targetPid = call.pid ∨ call.protectMm index ≠ none) ∧ call.mprotect index = 0

/-- The iteration comes to its end. -/
structure Passes (index : ℕ) : Prop where
  finds : call.Finds index
  protects : call.Splits index → call.Protects index
  findsAgain : call.FindsAgain index
  targetPte : call.targetPte index ≠ none
  srcPte : call.srcPte index ≠ none
  remaps : 0 ≤ (call.remapPfnRange index).toInt

/-- No lookup fails that the iteration comes to, and `protect_pid` drops no user of the target. -/
structure Clean (target : Mm) (index : ℕ) : Prop where
  finds : call.Finds index
  keeps : call.Splits index → call.protectMm index ≠ some target
  findsAgain : (call.Splits index → call.Protects index) → call.FindsAgain index

section Totals

variable {call} {lock drop : Mm → ℤ} {target : Mm} {index : ℕ} {vars : MapVars}

theorem total_lookupTarget (vma : Option VmArea) (addr : UInt64) :
    (lookupTarget target vma addr).total (MapAct.owed lock drop) =
      if VmArea.Holds vma addr then 0 else lock target := by
  simp only [lookupTarget, Routine.total_act_bind, Routine.total_leaveIf_bind, Routine.total_act,
    MapAct.owed]
  by_cases holds : VmArea.Holds vma addr
  · rw [if_neg (not_not.mpr holds), if_pos holds, Int.add_right_neg]
  · rw [if_pos holds, if_neg holds, Int.add_zero]

theorem result_lookupTarget_ok_iff {vma : Option VmArea} {addr : UInt64} {value : Unit} :
    (lookupTarget target vma addr).result = .ok value ↔ VmArea.Holds vma addr := by
  simp [lookupTarget, Routine.result_bind_ok_iff]

theorem total_resolveVm (mm : Mm) (pte : Option UInt64) :
    (resolveVm mm pte).total (MapAct.owed lock drop) = 0 := by
  simp only [resolveVm, Routine.total_act_bind, Routine.total_pure, MapAct.owed]
  omega

theorem result_resolveVm_ok_iff {mm : Mm} {pte value : Option UInt64} :
    (resolveVm mm pte).result = .ok value ↔ pte = value := by
  simp [resolveVm, Routine.result_bind_ok_iff]

theorem total_protectPid (addr len prot : UInt64) :
    (call.protectPid index addr len prot).total (MapAct.owed lock drop) =
      (call.protectMm index).elim 0 drop := by
  rw [protectPid, protectMm]
  split
  · simp [MapAct.owed]
  · rcases call.getMm (call.protectTask index) with _ | mm
    · rfl
    · simp [MapAct.owed]

/-- `protect_pid` always returns, and 0 if it has changed the protection. -/
theorem result_protectPid (call : MapCall Mm) (index : ℕ) (addr len prot : UInt64) :
    ∃ ret, (call.protectPid index addr len prot).result = .ok ret ∧
      (ret = 0 ↔ call.Protects index) := by
  rw [protectPid, Protects, protectMm]
  have zero : (call.mprotect index).toInt = 0 ↔ call.mprotect index = 0 :=
    Int32.toInt_inj (y := 0)
  split
  · rename_i own
    exact ⟨_, rfl, by simp [own, zero]⟩
  · rename_i other
    rcases call.getMm (call.protectTask index) with _ | mm
    · exact ⟨_, rfl, by simp [other, Errno.code]⟩
    · exact ⟨_, rfl, by simp [zero]⟩

theorem result_splitTarget_ok_iff {value : Unit} :
    (call.splitTarget index vars).result = .ok value ↔
      (call.targetContiguous = false ∨ vars.targetVmaSplit = false → call.Protects index) := by
  rw [splitTarget]
  split
  · rename_i splits
    rcases result_protectPid call index (call.targetAddrs index) call.targetSize protAll
      with ⟨ret, returns, zero⟩
    rw [Routine.result_bind_ok_iff]
    simp [returns, splits, zero]
  · rename_i splits
    simp [splits]

theorem total_splitTarget :
    (call.splitTarget index vars).total (MapAct.owed lock drop) =
      if call.targetContiguous = false ∨ vars.targetVmaSplit = false then
        (call.protectMm index).elim 0 drop
      else 0 := by
  rw [splitTarget]
  split
  · rcases result_protectPid call index (call.targetAddrs index) call.targetSize protAll
      with ⟨ret, returns, -⟩
    rw [Routine.total_bind_of_ok returns, total_protectPid, Routine.total_leaveIf, Int.add_zero]
  · rfl

theorem total_remapPage : (call.remapPage target index).total (MapAct.owed lock drop) = 0 :=
  Routine.total_bind_eq_zero (total_resolveVm ..) fun _ =>
    Routine.total_bind_eq_zero (Routine.total_orLeave ..) fun _ =>
      Routine.total_bind_eq_zero (total_resolveVm ..) fun _ =>
        Routine.total_bind_eq_zero (Routine.total_orLeave ..) fun _ => by simp [MapAct.owed]

theorem result_remapPage_ok_iff {after : MapVars} :
    (call.remapPage target index).result = .ok after ↔
      call.targetPte index ≠ none ∧ call.srcPte index ≠ none ∧
        0 ≤ (call.remapPfnRange index).toInt ∧
        after = ⟨true, (call.remapPfnRange index).toInt⟩ := by
  simp [remapPage, Routine.result_bind_ok_iff, result_resolveVm_ok_iff,
    Option.ne_none_iff_exists', eq_comm (a := after)]

theorem result_mapPage_ok_iff {after : MapVars} :
    (call.mapPage target index vars).result = .ok after ↔
      call.Finds index ∧
      (call.targetContiguous = false ∨ vars.targetVmaSplit = false → call.Protects index) ∧
      call.FindsAgain index ∧ call.targetPte index ≠ none ∧ call.srcPte index ≠ none ∧
      0 ≤ (call.remapPfnRange index).toInt ∧
      after = ⟨true, (call.remapPfnRange index).toInt⟩ := by
  simp [mapPage, Routine.result_bind_ok_iff, result_lookupTarget_ok_iff,
    result_splitTarget_ok_iff, result_remapPage_ok_iff, Finds, FindsAgain]

section Signs

variable (lock_nonneg : ∀ mm, 0 ≤ lock mm) (drop_nonneg : ∀ mm, 0 ≤ drop mm)

include lock_nonneg in
theorem total_lookupTarget_nonneg (vma : Option VmArea) (addr : UInt64) :
    0 ≤ (lookupTarget target vma addr).total (MapAct.owed lock drop) := by
  rw [total_lookupTarget]
  split
  · exact le_rfl
  · exact lock_nonneg target

include drop_nonneg in
theorem total_splitTarget_nonneg :
    0 ≤ (call.splitTarget index vars).total (MapAct.owed lock drop) := by
  rw [total_splitTarget]
  split
  · rcases call.protectMm index with _ | mm
    · exact le_rfl
    · exact drop_nonneg mm
  · exact le_rfl

include lock_nonneg drop_nonneg

theorem total_mapPage_nonneg (index : ℕ) (vars : MapVars) :
    0 ≤ (call.mapPage target index vars).total (MapAct.owed lock drop) :=
  Routine.total_bind_nonneg (total_lookupTarget_nonneg lock_nonneg _ _) fun _ =>
    Routine.total_bind_nonneg (total_splitTarget_nonneg drop_nonneg) fun _ =>
      Routine.total_bind_nonneg (total_lookupTarget_nonneg lock_nonneg _ _) fun _ =>
        total_remapPage.ge

/-- An iteration owes nothing if its lookups find the page, as far as it comes to them, and the
change of the protection drops no user that counts. -/
theorem total_mapPage_eq_zero_iff :
    (call.mapPage target index vars).total (MapAct.owed lock drop) = 0 ↔
      (call.Finds index ∨ lock target = 0) ∧
      (call.Finds index →
        (call.targetContiguous = false ∨ vars.targetVmaSplit = false →
          (call.protectMm index).elim 0 drop = 0) ∧
        ((call.targetContiguous = false ∨ vars.targetVmaSplit = false → call.Protects index) →
          call.FindsAgain index ∨ lock target = 0)) := by
  have lookups := @total_lookupTarget_nonneg _ lock drop target lock_nonneg
  have split := @total_splitTarget_nonneg _ call lock drop index vars drop_nonneg
  have remap : ∀ _ : Unit,
      0 ≤ (call.remapPage target index).total (MapAct.owed lock drop) := fun _ => total_remapPage.ge
  have again := fun _ : Unit => Routine.total_bind_nonneg
    (lookups (call.targetVmaAgain index) (call.targetAddrs index)) remap
  have rest := fun _ : Unit => Routine.total_bind_nonneg split again
  rw [mapPage, Routine.total_bind_eq_zero_iff (lookups _ _) rest]
  simp only [Routine.total_bind_eq_zero_iff split again,
    Routine.total_bind_eq_zero_iff (lookups _ _) remap, total_lookupTarget, total_splitTarget,
    total_remapPage, result_lookupTarget_ok_iff, result_splitTarget_ok_iff, Finds, FindsAgain]
  simp [or_iff_not_imp_left]

end Signs

end Totals

/-! ## The whole call -/

section Loop

variable {call} {target : Mm}

/-- Only the first iteration finds the area not yet split. -/
theorem split_of_reached {index : ℕ} {vars : MapVars}
    (reached : (Routine.loop (call.mapPage target) ⟨false, 0⟩ index).result = .ok vars) :
    vars.targetVmaSplit = false ↔ index = 0 := by
  cases index with
  | zero =>
      rw [Routine.loop, Routine.result_pure_ok_iff] at reached
      simp [← reached]
  | succ index =>
      rw [Routine.loop, Routine.result_bind_ok_iff] at reached
      rcases reached with ⟨before, -, passes⟩
      rw [(result_mapPage_ok_iff.mp passes).2.2.2.2.2.2]
      simp

theorem reached_iff {index : ℕ} :
    (∃ vars, (Routine.loop (call.mapPage target) ⟨false, 0⟩ index).result = .ok vars) ↔
      ∀ earlier < index, call.Passes earlier := by
  induction index with
  | zero => exact iff_of_true ⟨_, rfl⟩ nofun
  | succ index ih =>
      have passes : ∀ {vars : MapVars},
          (Routine.loop (call.mapPage target) ⟨false, 0⟩ index).result = .ok vars →
            ((∃ after, (call.mapPage target index vars).result = .ok after) ↔
              call.Passes index) := by
        intro vars reached
        simp only [result_mapPage_ok_iff, split_of_reached reached]
        constructor
        · rintro ⟨_, finds, protects, findsAgain, targetPte, srcPte, remaps, -⟩
          exact ⟨finds, protects, findsAgain, targetPte, srcPte, remaps⟩
        · rintro ⟨finds, protects, findsAgain, targetPte, srcPte, remaps⟩
          exact ⟨_, finds, protects, findsAgain, targetPte, srcPte, remaps, rfl⟩
      simp only [Routine.loop, Routine.result_bind_ok_iff]
      constructor
      · rintro ⟨after, vars, reached, ends⟩ earlier earlier_lt
        rcases Nat.lt_succ_iff_lt_or_eq.mp earlier_lt with before | rfl
        · exact ih.mp ⟨vars, reached⟩ earlier before
        · exact (passes reached).mp ⟨after, ends⟩
      · intro all
        rcases ih.mpr fun earlier before => all earlier (Nat.lt_succ_of_lt before)
          with ⟨vars, reached⟩
        rcases (passes reached).mpr (all index (Nat.lt_succ_self index)) with ⟨after, ends⟩
        exact ⟨after, vars, reached, ends⟩

/-- What an iteration owes nothing for, given what counts as a lock and as a user. -/
def OwesNothing (call : MapCall Mm) (lock drop : Mm → ℤ) (target : Mm) (index : ℕ) : Prop :=
  (call.Finds index ∨ lock target = 0) ∧
    (call.Finds index →
      (call.Splits index → (call.protectMm index).elim 0 drop = 0) ∧
      ((call.Splits index → call.Protects index) → call.FindsAgain index ∨ lock target = 0))

theorem total_mapLoop_eq_zero_iff {lock drop : Mm → ℤ} (lock_nonneg : ∀ mm, 0 ≤ lock mm)
    (drop_nonneg : ∀ mm, 0 ≤ drop mm) {count : ℕ} :
    (Routine.loop (call.mapPage target) ⟨false, 0⟩ count).total (MapAct.owed lock drop) = 0 ↔
      ∀ index < count, (∀ earlier < index, call.Passes earlier) →
        call.OwesNothing lock drop target index := by
  rw [Routine.total_loop_eq_zero_iff (total_mapPage_nonneg lock_nonneg drop_nonneg)]
  refine forall₂_congr fun index _ => ?_
  rw [← @reached_iff _ call target, exists_imp]
  refine forall₂_congr fun vars reached => ?_
  rw [total_mapPage_eq_zero_iff lock_nonneg drop_nonneg, split_of_reached reached]
  rfl

theorem total_mapPages {lock drop : Mm → ℤ} {entries : UInt64} :
    (call.mapPages target entries).total (MapAct.owed lock drop) =
      if call.srcVma = none then lock call.mm
      else (Routine.loop (call.mapPage target) ⟨false, 0⟩ call.request.pagesNum.toNat).total
        (MapAct.owed lock drop) := by
  rw [mapPages, Routine.total_act_bind, Routine.total_leaveIf_bind, Routine.total_act_bind,
    Routine.total_bind_of_rest fun vars => by simp [MapAct.owed]]
  simp only [Option.isNone_iff_eq_none, MapAct.owed]
  split <;> omega

theorem silent_checkRequest : call.checkRequest.Silent :=
  (Routine.silent_leaveIf _ _).bind fun _ => (Routine.silent_leaveIf _ _).bind fun _ =>
    (Routine.silent_leaveIf _ _).bind fun _ => (Routine.silent_leaveIf _ _).bind fun _ =>
      (Routine.silent_leaveIf _ _).bind fun _ => (Routine.silent_orLeave _ _).bind fun _ =>
        (Routine.silent_orLeave _ _).bind fun _ => Routine.silent_pure _

theorem result_checkRequest_ok_iff {checked : Mm × UInt64} :
    call.checkRequest.result = .ok checked ↔
      call.Admits ∧ call.targetMm = some checked.1 ∧ call.entriesAlloc = some checked.2 := by
  rcases checked with ⟨target, entries⟩
  simp only [checkRequest, Routine.result_bind_ok_iff, Routine.result_leaveIf_ok_iff,
    Routine.result_orLeave_ok_iff, Routine.result_pure_ok_iff, Prod.mk.injEq, Admits, not_or,
    Bool.not_eq_false]
  constructor
  · rintro ⟨-, pages, -, copied, -, fields, -, addrs, -, addrsCopied, _, alloc, _, found, rfl, rfl⟩
    exact ⟨⟨pages, copied, fields, addrs, addrsCopied, by simp [alloc]⟩, found, alloc⟩
  · rintro ⟨⟨pages, copied, fields, addrs, addrsCopied, -⟩, found, alloc⟩
    exact ⟨(), pages, (), copied, (), fields, (), addrs, (), addrsCopied, _, alloc, _, found,
      rfl, rfl⟩

theorem total_fopsIoctlDoMap_eq_zero_iff {lock drop : Mm → ℤ} (lock_nonneg : ∀ mm, 0 ≤ lock mm)
    (drop_nonneg : ∀ mm, 0 ≤ drop mm) :
    call.fopsIoctlDoMap.total (MapAct.owed lock drop) = 0 ↔
      ∀ target, call.Admits → call.targetMm = some target →
        (call.srcVma = none → lock call.mm = 0) ∧
        (call.srcVma ≠ none → ∀ index < call.request.pagesNum.toNat,
          (∀ earlier < index, call.Passes earlier) → call.OwesNothing lock drop target index) := by
  have rest : ∀ target entries, (call.mapPages target entries).total (MapAct.owed lock drop) = 0 ↔
      (call.srcVma = none → lock call.mm = 0) ∧
      (call.srcVma ≠ none → ∀ index < call.request.pagesNum.toNat,
        (∀ earlier < index, call.Passes earlier) → call.OwesNothing lock drop target index) := by
    intro target entries
    rw [total_mapPages, ← total_mapLoop_eq_zero_iff lock_nonneg drop_nonneg]
    by_cases missing : call.srcVma = none <;> simp [missing]
  rw [fopsIoctlDoMap, silent_checkRequest.total_bind_eq_zero_iff]
  simp only [result_checkRequest_ok_iff, rest]
  constructor
  · intro all target admits found
    rcases Option.ne_none_iff_exists'.mp admits.2.2.2.2.2 with ⟨entries, alloc⟩
    exact all (target, entries) ⟨admits, found, alloc⟩
  · rintro all ⟨target, entries⟩ ⟨admits, found, -⟩
    exact all target admits found

theorem Clean.owesNoLock {target : Mm} {index : ℕ} (clean : call.Clean target index)
    (lock : Mm → ℤ) : call.OwesNothing lock (fun _ => 0) target index := by
  refine ⟨Or.inl clean.finds, fun _ =>
    ⟨fun _ => ?_, fun passes => Or.inl (clean.findsAgain passes)⟩⟩
  cases call.protectMm index <;> rfl

end Loop

section Balance

variable [DecidableEq Mm] {call}

theorem elim_one_eq_zero_iff {target : Mm} {found : Option Mm} :
    found.elim 0 (MapAct.one target) = 0 ↔ found ≠ some target := by
  cases found <;> simp

theorem Clean.owesNoUser {target : Mm} {index : ℕ} (clean : call.Clean target index) :
    call.OwesNothing (fun _ => 0) (MapAct.one target) target index :=
  ⟨Or.inr rfl, fun _ => ⟨fun splits => elim_one_eq_zero_iff.mpr (clean.keeps splits),
    fun _ => Or.inr rfl⟩⟩

theorem clean_of_owesNothing {target : Mm} {index : ℕ}
    (locks : call.OwesNothing (MapAct.one target) (fun _ => 0) target index)
    (users : call.OwesNothing (fun _ => 0) (MapAct.one target) target index) :
    call.Clean target index := by
  have held : MapAct.one target target ≠ 0 := fun none => MapAct.one_eq_zero_iff.mp none rfl
  have finds := locks.1.resolve_right held
  exact
    { finds := finds
      keeps := fun splits => elim_one_eq_zero_iff.mp ((users.2 finds).1 splits)
      findsAgain := fun passes => ((locks.2 finds).2 passes).resolve_right held }

/--
The locks and the users of a mapping come out as they were exactly if a request
that is taken up finds its source, and every page that is reached is found by its
lookups and protected without dropping a user of the target.
-/
theorem keepsBalance_iff (call : MapCall Mm) :
    call.KeepsBalance ↔
      ∀ target, call.Admits → call.targetMm = some target →
        call.srcVma ≠ none ∧
        ∀ index < call.request.pagesNum.toNat,
          (∀ earlier < index, call.Passes earlier) → call.Clean target index := by
  have lockHeld_iff : ∀ mm, call.fopsIoctlDoMap.total (MapAct.lockHeld mm) = 0 ↔ _ :=
    fun mm => total_fopsIoctlDoMap_eq_zero_iff (MapAct.one_nonneg mm) fun _ => le_rfl
  have usersLost_iff : ∀ mm, call.fopsIoctlDoMap.total (MapAct.usersLost mm) = 0 ↔ _ :=
    fun mm => total_fopsIoctlDoMap_eq_zero_iff (fun _ => le_rfl) (MapAct.one_nonneg mm)
  constructor
  · intro balance target admits found
    have source := (lockHeld_iff _).mp balance.sourceLock target admits found
    have locks := (lockHeld_iff _).mp (balance.targetLock target found) target admits found
    have users := (usersLost_iff _).mp (balance.targetUsers target found) target admits found
    have srcFound : call.srcVma ≠ none := fun missing =>
      MapAct.one_eq_zero_iff.mp (source.1 missing) rfl
    exact ⟨srcFound, fun index index_lt reached => clean_of_owesNothing
      (locks.2 srcFound index index_lt reached) (users.2 srcFound index index_lt reached)⟩
  · intro clean
    have locks : ∀ mm, call.fopsIoctlDoMap.total (MapAct.lockHeld mm) = 0 := by
      intro mm
      refine (lockHeld_iff mm).mpr fun target admits found => ?_
      rcases clean target admits found with ⟨srcFound, pages⟩
      exact ⟨fun missing => absurd missing srcFound, fun _ index index_lt reached =>
        (pages index index_lt reached).owesNoLock _⟩
    refine ⟨locks _, fun target _ => locks target, fun target found => ?_⟩
    refine (usersLost_iff target).mpr fun other admits found' => ?_
    obtain rfl := Option.some.inj (found.symm.trans found')
    rcases clean target admits found with ⟨srcFound, pages⟩
    exact ⟨fun _ => rfl, fun _ index index_lt reached =>
      (pages index index_lt reached).owesNoUser⟩

/-- A request for another process, which keeps its address space, never keeps the balance. -/
theorem not_keepsBalance_of_other {call : MapCall Mm} {target : Mm} (admits : call.Admits)
    (found : call.targetMm = some target) (same : call.protectMm 0 = some target) :
    ¬call.KeepsBalance := by
  intro balance
  have pages := ((keepsBalance_iff call).mp balance target admits found).2
  have some_page : 0 < call.request.pagesNum.toNat := by
    refine Nat.pos_of_ne_zero fun none => admits.2.2.1.2.1 ?_
    exact UInt64.toNat_inj.mp none
  exact (pages 0 some_page nofun).keeps (Or.inr rfl) same

end Balance

/-- A mapping of one page of the caller over another of its pages. -/
def ownPage : MapCall ℕ where
  pid := 7
  mm := 1
  request := ⟨0x1000, 1, 7, 0x8000, 0⟩
  pagesAlloc := true
  requestCopied := true
  addrsAlloc := true
  addrsCopied := true
  targetAddrs := fun _ => 0x5000
  entriesAlloc := some 0x9000
  targetTask := some ⟨some 2, none⟩
  protectTask := fun _ => some ⟨some 2, none⟩
  srcVma := some ⟨0x1000, 0x2000⟩
  targetVma := fun _ => some ⟨0x5000, 0x6000⟩
  targetVmaAgain := fun _ => some ⟨0x5000, 0x6000⟩
  mprotect := fun _ => 0
  targetPte := fun _ => some 0x3025
  srcPte := fun _ => some 0x4025
  srcFields := fun _ => ⟨0x3, 0x25⟩
  remapPfnRange := fun _ => 0
  replyCopied := true

/-- An address in no area leaves the lock held, and a mapping into another process takes a user
from it. -/
theorem ownPage_unbalanced :
    let unmapped : MapCall ℕ := { ownPage with targetVma := fun _ => none }
    let other : MapCall ℕ := { ownPage with request := ⟨0x1000, 1, 8, 0x8000, 0⟩ }
    unmapped.fopsIoctlDoMap.result = .error (-14) ∧
    unmapped.fopsIoctlDoMap.total (MapAct.lockHeld 1) = 1 ∧
    ¬unmapped.KeepsBalance ∧
    other.fopsIoctlDoMap.result = .ok 0 ∧
    other.fopsIoctlDoMap.total (MapAct.usersLost 2) = 1 ∧
    ¬other.KeepsBalance := by
  intro unmapped other
  have held : unmapped.fopsIoctlDoMap.total (MapAct.lockHeld 1) = 1 := by decide
  have lost : other.fopsIoctlDoMap.total (MapAct.usersLost 2) = 1 := by decide
  refine ⟨by rfl, held, fun balance => ?_, by rfl, lost, fun balance => ?_⟩
  · have balanced : unmapped.fopsIoctlDoMap.total (MapAct.lockHeld 1) = 0 := balance.sourceLock
    rw [held] at balanced
    cases balanced
  · have balanced := balance.targetUsers 2 (by decide)
    rw [lost] at balanced
    cases balanced

end MapCall

end Acai
