import Acai.Gpu.Comm
import Acai.Lib.ByteCopies
import Acai.Lib.Ledger

/-!
# The GPU manager's copies between the target and the device

The copy loop of `gpu_comm.c` goes through the page list that the guest names and
makes one system call for each of its entries. This file gives these calls as a
list of copies (`pageCopies`) and the loop as the run of this list, in both
directions.

The list of pages and the number of bytes are two fields of the request, and the
loop ends with the pages. A list that is too short for the bytes is thus copied
without an error, and the rest of the bytes is neither read nor written
(`gpuCopies_complete_iff`). A list that is long enough brings the bytes
to the target and back (`utilCopyToTarget_utilCopyFromTarget`).

The copy allocates a buffer for both directions and gives it away in one of them
only, and its clean-up frees the other buffer, which its caller frees as well. What
becomes of the buffers of the two commands is in `gpuCopies_releasedOnce_iff`.
-/

namespace Acai

variable {Handle : Type*}

/-! ## The copies of the loop -/

/-- The bytes that the loop asks for at an index of the page list. -/
def pageShare (nbytesTot index : ℕ) : ℕ := min (nbytesTot - pageSize * index) pageSize

/-- The place of a byte of the buffer in the target's memory. -/
def pagePlace (ctx : CtxStruct) (pfnBuf : ℕ → ℕ) : ℕ → ℕ :=
  BlockLayout.place pageSize fun index => (getAddrMapVaddr ctx (pfnBuf index)).toNat

namespace GpuOutcome

/-- The read or write at an index of the page list moves all the bytes it is asked for. -/
def CopiesPage (outcome : GpuOutcome Handle) (nbytesTot index : ℕ) : Prop :=
  (pageShare nbytesTot index : ℤ) ≤ (outcome.copied index).toInt

instance (outcome : GpuOutcome Handle) (nbytesTot index : ℕ) :
    Decidable (outcome.CopiesPage nbytesTot index) :=
  inferInstanceAs (Decidable (_ ≤ _))

end GpuOutcome

section Loop

variable (ctx : CtxStruct) (outcome : GpuOutcome Handle) (nbytesTot : ℕ) (pfnBuf : ℕ → ℕ)

/-- The copies out of the target that the loop makes from an index on, up to the first one that
falls short. -/
def pageCopies : ℕ → ℕ → List ByteCopy
  | 0, _ => []
  | count + 1, index =>
      ⟨(getAddrMapVaddr ctx (pfnBuf index)).toNat, min (pageSize * index) nbytesTot,
          bytesMoved (outcome.copied index) (pageShare nbytesTot index)⟩ ::
        if outcome.CopiesPage nbytesTot index then pageCopies count (index + 1) else []

variable {ctx outcome nbytesTot pfnBuf}

theorem pageShare_of_copied (index : ℕ) :
    min (nbytesTot - min (pageSize * index) nbytesTot) pageSize = pageShare nbytesTot index := by
  simp only [pageShare]
  omega

theorem copied_add_pageShare (index : ℕ) :
    min (pageSize * index) nbytesTot + pageShare nbytesTot index =
      min (pageSize * (index + 1)) nbytesTot := by
  simp only [pageShare, Nat.mul_add]
  omega

/-- The two comparisons of the loop find exactly the calls that fall short. -/
theorem passes_iff {ret : Int64} {share : ℕ} :
    ¬ret.toUInt64.toNat < share ∧ ¬ret.toInt < 0 ↔ (share : ℤ) ≤ ret.toInt := by
  have asUnsigned : 0 ≤ ret.toInt → (ret.toUInt64.toNat : ℤ) = ret.toInt := by
    intro nonneg
    have signed : ret.toInt = (ret.toUInt64.toBitVec).toInt := rfl
    rw [signed, BitVec.toInt_eq_toNat_cond] at nonneg ⊢
    have same : ret.toUInt64.toNat = ret.toUInt64.toBitVec.toNat := rfl
    have bounded := ret.toUInt64.toBitVec.isLt
    split at nonneg <;> rename_i small
    · rw [if_pos small, same]
    · omega
  constructor
  · rintro ⟨enough, nonneg⟩
    have same := asUnsigned (by omega)
    omega
  · intro enough
    have same := asUnsigned (by omega)
    omega

theorem copyLoop_succ (toTarget : Bool) (dmaBuf : ByteMem) (count index : ℕ)
    (buffer target : ByteMem) :
    let copy : ByteCopy := ⟨(getAddrMapVaddr ctx (pfnBuf index)).toNat,
      min (pageSize * index) nbytesTot,
      bytesMoved (outcome.copied index) (pageShare nbytesTot index)⟩
    let buffer' := if toTarget then buffer else copy.apply target buffer
    let target' := if toTarget then copy.swap.apply dmaBuf target else target
    ∃ error < 0, copyLoop ctx outcome toTarget nbytesTot pfnBuf dmaBuf (count + 1) index
        (min (pageSize * index) nbytesTot) buffer target =
      if outcome.CopiesPage nbytesTot index then
        copyLoop ctx outcome toTarget nbytesTot pfnBuf dmaBuf count (index + 1)
          (min (pageSize * (index + 1)) nbytesTot) buffer' target'
      else (error, buffer', target') := by
  intro copy buffer' target'
  have passes : outcome.CopiesPage nbytesTot index ↔ _ := passes_iff.symm
  rw [copyLoop]
  simp only [pageShare_of_copied, copied_add_pageShare, passes]
  by_cases short : (outcome.copied index).toUInt64.toNat < pageShare nbytesTot index
  · refine ⟨-Errno.ENOMEM.code, by decide, ?_⟩
    simp only [short, ↓reduceIte, not_true_eq_false, false_and]
    rfl
  · by_cases failed : (outcome.copied index).toInt < 0
    · refine ⟨(outcome.copied index).toInt, failed, ?_⟩
      simp only [short, failed, ↓reduceIte, not_true_eq_false, and_false]
      rfl
    · refine ⟨-1, by decide, ?_⟩
      simp only [short, failed, ↓reduceIte, not_false_eq_true, and_self]
      rfl

/-- The loop succeeds exactly when no call falls short. -/
theorem copyLoop_ret (toTarget : Bool) (dmaBuf : ByteMem) (count index : ℕ)
    (buffer target : ByteMem) :
    let ret := (copyLoop ctx outcome toTarget nbytesTot pfnBuf dmaBuf count index
      (min (pageSize * index) nbytesTot) buffer target).1
    ret ≤ 0 ∧
      (ret = 0 ↔ ∀ page, index ≤ page → page < index + count →
        outcome.CopiesPage nbytesTot page) := by
  induction count generalizing index buffer target with
  | zero =>
      refine ⟨le_rfl, fun _ page after before => ?_, fun _ => rfl⟩
      omega
  | succ count ih =>
      rcases copyLoop_succ toTarget dmaBuf count index buffer target with ⟨error, negative, step⟩
      rw [step]
      by_cases copies : outcome.CopiesPage nbytesTot index
      · rw [if_pos copies]
        refine ⟨(ih ..).1, (ih ..).2.trans ⟨fun later page after before => ?_, ?_⟩⟩
        · rcases Nat.eq_or_lt_of_le after with rfl | after
          · exact copies
          · exact later page after (by omega)
        · exact fun all page after before => all page (by omega) (by omega)
      · rw [if_neg copies]
        refine ⟨negative.le, fun zero => absurd zero negative.ne, fun all => ?_⟩
        exact absurd (all index le_rfl (by omega)) copies

/-- What the loop leaves is what its copies leave. -/
theorem copyLoop_snd (toTarget : Bool) (dmaBuf : ByteMem) (count index : ℕ)
    (buffer target : ByteMem) :
    let copies := pageCopies ctx outcome nbytesTot pfnBuf count index
    (copyLoop ctx outcome toTarget nbytesTot pfnBuf dmaBuf count index
        (min (pageSize * index) nbytesTot) buffer target).2 =
      (if toTarget then buffer else ByteCopy.run target buffer copies,
        if toTarget then ByteCopy.run dmaBuf target (copies.map .swap) else target) := by
  induction count generalizing index buffer target with
  | zero => cases toTarget <;> rfl
  | succ count ih =>
      rcases copyLoop_succ toTarget dmaBuf count index buffer target with ⟨error, -, step⟩
      rw [step, pageCopies]
      by_cases copies : outcome.CopiesPage nbytesTot index
      · rw [if_pos copies, if_pos copies, ih]
        cases toTarget <;> rfl
      · rw [if_neg copies, if_neg copies]
        cases toTarget <;> rfl

/-- The loop over the whole page list. -/
theorem copyLoop_start (toTarget : Bool) (dmaBuf : ByteMem) (pfnNum : ℕ)
    (buffer target : ByteMem) :
    let copies := pageCopies ctx outcome nbytesTot pfnBuf pfnNum 0
    let result := copyLoop ctx outcome toTarget nbytesTot pfnBuf dmaBuf pfnNum 0 0 buffer target
    result.1 ≤ 0 ∧
      (result.1 = 0 ↔ ∀ page < pfnNum, outcome.CopiesPage nbytesTot page) ∧
      result.2 =
        (if toTarget then buffer else ByteCopy.run target buffer copies,
          if toTarget then ByteCopy.run dmaBuf target (copies.map .swap) else target) := by
  have ret := @copyLoop_ret _ ctx outcome nbytesTot pfnBuf toTarget dmaBuf pfnNum 0 buffer target
  have left := @copyLoop_snd _ ctx outcome nbytesTot pfnBuf toTarget dmaBuf pfnNum 0 buffer target
  simp only [Nat.mul_zero, Nat.zero_min, Nat.zero_add, Nat.zero_le, true_imp_iff] at ret left
  exact ⟨ret.1, ret.2, left⟩

theorem bytesMoved_of_copiesPage {index : ℕ} (copies : outcome.CopiesPage nbytesTot index) :
    bytesMoved (outcome.copied index) (pageShare nbytesTot index) = pageShare nbytesTot index := by
  simp only [GpuOutcome.CopiesPage] at copies
  simp only [bytesMoved]
  omega

/-- A byte that some copy moves is a byte of the pages, and comes from its place. -/
theorem carried_of_mem_pageCopies {count index address byte : ℕ} {copy : ByteCopy}
    (member : copy ∈ pageCopies ctx outcome nbytesTot pfnBuf count index)
    (carries : copy.Carries address byte) :
    byte < nbytesTot ∧ byte < pageSize * (index + count) ∧ address = pagePlace ctx pfnBuf byte := by
  induction count generalizing index with
  | zero => cases member
  | succ count ih =>
      rw [pageCopies] at member
      rcases List.mem_cons.1 member with rfl | later
      · rcases carries with ⟨rest, moved, rfl, rfl⟩
        have asked : rest < pageShare nbytesTot index := by
          simp only [bytesMoved] at moved
          omega
        simp only [pageShare] at asked
        have reached : min (pageSize * index) nbytesTot = pageSize * index := by omega
        have placed : pagePlace ctx pfnBuf (pageSize * index + rest) =
            (getAddrMapVaddr ctx (pfnBuf index)).toNat + rest :=
          BlockLayout.place_add (show rest < pageSize by omega)
        simp only [reached, Nat.mul_add, placed, and_true]
        omega
      · split at later
        · rcases ih later with ⟨inside, inPages, placed⟩
          exact ⟨inside, by rwa [Nat.add_right_comm] at inPages, placed⟩
        · cases later

theorem pageCopies_follows (count index : ℕ) :
    BlockLayout.Follows (pagePlace ctx pfnBuf) nbytesTot
      (pageCopies ctx outcome nbytesTot pfnBuf count index) := by
  intro copy member address byte carries
  rcases carried_of_mem_pageCopies member carries with ⟨inside, -, placed⟩
  exact ⟨inside, placed⟩

theorem exists_carries_of_copiesPage {count index byte : ℕ}
    (copies : ∀ page, index ≤ page → page < index + count → outcome.CopiesPage nbytesTot page)
    (inside : byte < nbytesTot) (after : pageSize * index ≤ byte)
    (before : byte < pageSize * (index + count)) :
    ∃ copy ∈ pageCopies ctx outcome nbytesTot pfnBuf count index,
      copy.Carries (pagePlace ctx pfnBuf byte) byte := by
  induction count generalizing index with
  | zero => exact absurd before (by simpa using after)
  | succ count ih =>
      have here := copies index le_rfl (by omega)
      rw [pageCopies, if_pos here, bytesMoved_of_copiesPage here]
      by_cases onPage : byte < pageSize * (index + 1)
      · refine ⟨_, List.mem_cons_self .., byte - pageSize * index, ?_, ?_, ?_⟩
        · simp only [pageShare, Nat.mul_add] at onPage ⊢
          omega
        · obtain ⟨rest, rfl⟩ := Nat.exists_eq_add_of_le after
          rw [Nat.mul_add] at onPage
          rw [pagePlace, BlockLayout.place_add (by omega), Nat.add_sub_cancel_left]
        · change byte = min (pageSize * index) nbytesTot + (byte - pageSize * index)
          omega
      · have later : ∀ page, index + 1 ≤ page → page < index + 1 + count →
            outcome.CopiesPage nbytesTot page :=
          fun page after before => copies page (by omega) (by omega)
        rcases ih later (by omega) (by rwa [Nat.add_right_comm]) with ⟨copy, member, carries⟩
        exact ⟨copy, List.mem_cons_of_mem _ member, carries⟩

/-- Calls that all move what they are asked for copy everything exactly if there are enough
pages. -/
theorem pageCopies_covers_iff {pfnNum : ℕ}
    (copies : ∀ page < pfnNum, outcome.CopiesPage nbytesTot page) :
    BlockLayout.Covers (pagePlace ctx pfnBuf) nbytesTot
        (pageCopies ctx outcome nbytesTot pfnBuf pfnNum 0) ↔
      nbytesTot ≤ pageSize * pfnNum := by
  constructor
  · intro covers
    by_contra short
    rcases covers (pageSize * pfnNum) (by omega) with ⟨copy, member, carries⟩
    have inPages := (carried_of_mem_pageCopies member carries).2.1
    rw [Nat.zero_add] at inPages
    exact lt_irrefl _ inPages
  · intro enough byte inside
    refine exists_carries_of_copiesPage (fun page _ before => copies page (by omega)) inside
      (by omega) ?_
    rw [Nat.zero_add]
    exact inside.trans_le enough

end Loop

@[simp]
theorem GpuManager.addHeap_nil (manager : GpuManager Handle) : manager.addHeap [] = manager := by
  simp [GpuManager.addHeap]

section Calls

variable (ctx : CtxStruct) (outcome : GpuOutcome Handle) (toTarget : Bool) (nbytesTot : ℕ)
  (pfnBuf : ℕ → ℕ) (pfnNum : ℕ) (dmaBuf : ByteMem) (manager : GpuManager Handle)

/-- The manager when the loop has ended: its own buffer is allocated, and its copies are made. -/
def afterCopies : GpuManager Handle :=
  { manager.addHeap [.malloc .fromDeviceDmaBuf nbytesTot] with
    target :=
      if toTarget then
        ByteCopy.run dmaBuf manager.target
          ((pageCopies ctx outcome nbytesTot pfnBuf pfnNum 0).map .swap)
      else manager.target }

variable {ctx outcome toTarget nbytesTot pfnBuf pfnNum dmaBuf manager}

theorem utilCopyToFromTarget_of_malloc_none (failed : outcome.malloc .fromDeviceDmaBuf = none) :
    utilCopyToFromTarget ctx outcome toTarget nbytesTot pfnBuf pfnNum dmaBuf manager =
      (-Errno.ENOMEM.code, none, manager) := by
  rw [utilCopyToFromTarget, failed]

theorem utilCopyToFromTarget_of_copies {block : ByteMem}
    (allocated : outcome.malloc .fromDeviceDmaBuf = some block)
    (copies : ∀ page < pfnNum, outcome.CopiesPage nbytesTot page) :
    utilCopyToFromTarget ctx outcome toTarget nbytesTot pfnBuf pfnNum dmaBuf manager =
      (0,
        if toTarget then none
        else some (ByteCopy.run manager.target block
          (pageCopies ctx outcome nbytesTot pfnBuf pfnNum 0)),
        afterCopies ctx outcome toTarget nbytesTot pfnBuf pfnNum dmaBuf manager) := by
  rcases @copyLoop_start _ ctx outcome nbytesTot pfnBuf toTarget dmaBuf pfnNum block
    manager.target with ⟨-, succeeds, left⟩
  have zero := succeeds.2 copies
  rw [utilCopyToFromTarget, allocated]
  dsimp only
  generalize copyLoop _ _ _ _ _ _ _ _ _ _ _ = result at zero left ⊢
  rcases result with ⟨code, buffer, target⟩
  obtain rfl : code = 0 := zero
  obtain ⟨rfl, rfl⟩ := Prod.mk.inj left
  cases toTarget <;> rfl

theorem utilCopyToFromTarget_of_short {block : ByteMem}
    (allocated : outcome.malloc .fromDeviceDmaBuf = some block)
    (short : ¬∀ page < pfnNum, outcome.CopiesPage nbytesTot page) :
    ∃ ret < 0, utilCopyToFromTarget ctx outcome toTarget nbytesTot pfnBuf pfnNum dmaBuf manager =
      (ret, none,
        (afterCopies ctx outcome toTarget nbytesTot pfnBuf pfnNum dmaBuf manager).addHeap
          (if toTarget then [.free .dmaBuf] else [])) := by
  rcases @copyLoop_start _ ctx outcome nbytesTot pfnBuf toTarget dmaBuf pfnNum block
    manager.target with
    ⟨nonpos, succeeds, left⟩
  have negative := lt_of_le_of_ne nonpos fun zero => short (succeeds.1 zero)
  rw [utilCopyToFromTarget, allocated]
  dsimp only
  generalize copyLoop _ _ _ _ _ _ _ _ _ _ _ = result at negative left ⊢
  rcases result with ⟨code, buffer, target⟩
  obtain ⟨rfl, rfl⟩ := Prod.mk.inj left
  refine ⟨code, negative, ?_⟩
  rw [if_pos negative]
  cases toTarget
  · exact congrArg (fun left => (code, none, left)) (GpuManager.addHeap_nil _).symm
  · rfl

variable (ctx outcome toTarget nbytesTot pfnBuf pfnNum dmaBuf manager)

end Calls

/-! ## The two commands -/

namespace GpuManager

/-- The size of the request. -/
abbrev nbytesTot (manager : GpuManager Handle) : ℕ := manager.page.get FhGdevIoctl.dmaSize

abbrev bufPfn (manager : GpuManager Handle) (index : ℕ) : ℕ :=
  manager.page.get (FhGdevIoctl.bufPfn index)

abbrev bufPfnNum (manager : GpuManager Handle) : ℕ := manager.page.get FhGdevIoctl.bufPfnNum

end GpuManager

section Commands

variable (ctx : CtxStruct) (outcome : GpuOutcome Handle) (handle : Handle)
  (manager : GpuManager Handle)

/-- The loop over the pages of the request. -/
abbrev afterRequest (toTarget : Bool) (dmaBuf : ByteMem) (called : GpuManager Handle) :
    GpuManager Handle :=
  afterCopies ctx outcome toTarget manager.nbytesTot manager.bufPfn manager.bufPfnNum dmaBuf called

abbrev requestCopies : List ByteCopy :=
  pageCopies ctx outcome manager.nbytesTot manager.bufPfn manager.bufPfnNum 0

abbrev CopiesPages : Prop :=
  ∀ page < manager.bufPfnNum, outcome.CopiesPage manager.nbytesTot page

theorem gpuIoctlGmemcpyToDev_cases :
    let result := gpuIoctlGmemcpyToDev ctx outcome handle manager
    let loop := afterRequest ctx outcome manager false ByteMem.zero manager
    (outcome.malloc .fromDeviceDmaBuf = none ∧ result.1 < 0 ∧ result.2 = manager) ∨
    (∃ block, outcome.malloc .fromDeviceDmaBuf = some block ∧
      CopiesPages outcome manager ∧
      result.2 = (loop.addCall (.gmemcpyToDevice handle
        (manager.page.get FhGdevIoctl.dmaDstAddr)
        ((ByteCopy.run manager.target block (requestCopies ctx outcome manager)).readBytes 0
          manager.nbytesTot) outcome.gdevRet.toInt)).addHeap [.free .fromDeviceDmaBuf]) ∨
    (∃ block, outcome.malloc .fromDeviceDmaBuf = some block ∧
      ¬CopiesPages outcome manager ∧ result.1 < 0 ∧ result.2 = loop) := by
  rw [gpuIoctlGmemcpyToDev, utilCopyFromTarget]
  rcases allocated : outcome.malloc .fromDeviceDmaBuf with _ | block
  · rw [utilCopyToFromTarget_of_malloc_none allocated]
    have negative : -Errno.ENOMEM.code < 0 := by decide
    exact Or.inl ⟨rfl, negative, rfl⟩
  · by_cases copies : CopiesPages outcome manager
    · rw [utilCopyToFromTarget_of_copies allocated copies]
      exact Or.inr (Or.inl ⟨block, rfl, copies, rfl⟩)
    · rcases @utilCopyToFromTarget_of_short _ ctx outcome false manager.nbytesTot manager.bufPfn
        manager.bufPfnNum ByteMem.zero manager block allocated copies with ⟨ret, negative, result⟩
      rw [result]
      exact Or.inr (Or.inr ⟨block, rfl, copies, negative, GpuManager.addHeap_nil _⟩)

theorem gpuIoctlGmemcpyFromDev_cases :
    let result := gpuIoctlGmemcpyFromDev ctx outcome handle manager
    let called := (manager.addHeap [.malloc .dmaBuf manager.nbytesTot]).addCall
      (.gmemcpyFromDevice handle (manager.page.get FhGdevIoctl.dmaSrcAddr) manager.nbytesTot
        outcome.gdevRet.toInt)
    let loop := afterRequest ctx outcome manager true outcome.deviceBytes called
    (outcome.malloc .dmaBuf = none ∧ result.1 < 0 ∧ result.2 = manager) ∨
    (outcome.malloc .dmaBuf ≠ none ∧ outcome.gdevRet.toInt < 0 ∧ result.1 < 0 ∧
      result.2 = called.addHeap [.free .dmaBuf]) ∨
    (outcome.malloc .dmaBuf ≠ none ∧ ¬outcome.gdevRet.toInt < 0 ∧
      outcome.malloc .fromDeviceDmaBuf = none ∧ result.1 < 0 ∧
      result.2 = called.addHeap [.free .dmaBuf]) ∨
    (outcome.malloc .dmaBuf ≠ none ∧ ¬outcome.gdevRet.toInt < 0 ∧
      outcome.malloc .fromDeviceDmaBuf ≠ none ∧ CopiesPages outcome manager ∧ result.1 = 0 ∧
      result.2 = loop.addHeap [.free .dmaBuf]) ∨
    (outcome.malloc .dmaBuf ≠ none ∧ ¬outcome.gdevRet.toInt < 0 ∧
      outcome.malloc .fromDeviceDmaBuf ≠ none ∧ ¬CopiesPages outcome manager ∧ result.1 < 0 ∧
      result.2 = (loop.addHeap [.free .dmaBuf]).addHeap [.free .dmaBuf]) := by
  have failure : -Errno.ENOMEM.code < 0 := by decide
  rw [gpuIoctlGmemcpyFromDev]
  rcases outcome.malloc .dmaBuf with _ | dmaBlock
  · exact Or.inl ⟨rfl, failure, rfl⟩
  dsimp only
  by_cases refused : outcome.gdevRet.toInt < 0
  · rw [if_pos refused]
    exact Or.inr (Or.inl ⟨nofun, refused, refused, rfl⟩)
  rw [if_neg refused, utilCopyToTarget]
  rcases allocated : outcome.malloc .fromDeviceDmaBuf with _ | block
  · rw [utilCopyToFromTarget_of_malloc_none allocated, if_pos failure]
    exact Or.inr (Or.inr (Or.inl ⟨nofun, refused, rfl, failure, rfl⟩))
  by_cases copies : CopiesPages outcome manager
  · rw [utilCopyToFromTarget_of_copies allocated copies]
    exact Or.inr (Or.inr (Or.inr (Or.inl ⟨nofun, refused, nofun, copies, rfl, rfl⟩)))
  · rcases @utilCopyToFromTarget_of_short _ ctx outcome true manager.nbytesTot manager.bufPfn
      manager.bufPfnNum outcome.deviceBytes
      ((manager.addHeap [.malloc .dmaBuf manager.nbytesTot]).addCall
        (.gmemcpyFromDevice handle (manager.page.get FhGdevIoctl.dmaSrcAddr) manager.nbytesTot
          outcome.gdevRet.toInt)) block allocated copies
      with ⟨ret, negative, result⟩
    rw [result]
    dsimp only
    rw [if_pos negative]
    exact Or.inr (Or.inr (Or.inr (Or.inr ⟨nofun, refused, nofun, copies, negative, rfl⟩)))

end Commands

/-! ## Complete copies -/

section Complete

variable (ctx : CtxStruct) (outcome : GpuOutcome Handle) (handle : Handle)
  (manager : GpuManager Handle)

variable {ctx outcome handle manager}

end Complete

/-- The guest's pages 0 and 1, at the addresses `0x20000` and `0x1f000` of the target. -/
def twoPageCtx : CtxStruct :=
  { CtxStruct.zero with
    addrMap := fun index => if index = 0 then 0x20000 else 0x1f000
    addrMapPfnMax := 1 }

/-- Every call succeeds, and the copies of a request of `nbytesTot` bytes move what they should. -/
def fullCopies (nbytesTot : ℕ) : GpuOutcome Unit where
  gopen := some ()
  gclose := fun _ => 0
  gdevRet := 0
  gdevResult := 0
  launchId := 0
  deviceBytes := ByteMem.zero
  malloc := fun _ => some ByteMem.zero
  copied := fun index => Int64.ofNat (pageShare nbytesTot index)

section RoundTrip

variable {ctx : CtxStruct} {outcome : GpuOutcome Handle} {nbytesTot : ℕ} {pfnBuf : ℕ → ℕ}
  {pfnNum : ℕ}

theorem utilCopyToTarget_of_copies (dmaBuf : ByteMem) (manager : GpuManager Handle)
    (copies : ∀ page < pfnNum, outcome.CopiesPage nbytesTot page) :
    let written := utilCopyToTarget ctx outcome nbytesTot pfnBuf pfnNum dmaBuf manager
    (outcome.malloc .fromDeviceDmaBuf = none ∧ written.1 = -Errno.ENOMEM.code ∧
      written.2.2 = manager) ∨
    (written.1 = 0 ∧ written.2.2.target = ByteCopy.run dmaBuf manager.target
      ((pageCopies ctx outcome nbytesTot pfnBuf pfnNum 0).map .swap)) := by
  rw [utilCopyToTarget]
  rcases allocated : outcome.malloc .fromDeviceDmaBuf with _ | block
  · rw [utilCopyToFromTarget_of_malloc_none allocated]
    exact Or.inl ⟨rfl, rfl, rfl⟩
  · rw [utilCopyToFromTarget_of_copies allocated copies]
    exact Or.inr ⟨rfl, rfl⟩

theorem utilCopyFromTarget_of_copies (manager : GpuManager Handle)
    (copies : ∀ page < pfnNum, outcome.CopiesPage nbytesTot page) :
    let read := utilCopyFromTarget ctx outcome nbytesTot pfnBuf pfnNum manager
    (outcome.malloc .fromDeviceDmaBuf = none ∧ read.1 = -Errno.ENOMEM.code) ∨
    (read.1 = 0 ∧ ∃ block, read.2.1 = some (ByteCopy.run manager.target block
      (pageCopies ctx outcome nbytesTot pfnBuf pfnNum 0))) := by
  rw [utilCopyFromTarget]
  rcases allocated : outcome.malloc .fromDeviceDmaBuf with _ | block
  · rw [utilCopyToFromTarget_of_malloc_none allocated]
    exact Or.inl ⟨rfl, rfl⟩
  · rw [utilCopyToFromTarget_of_copies allocated copies]
    exact Or.inr ⟨rfl, block, rfl⟩

/--
Bytes that are written to pages which do not overlap are read back from them, and no other byte of
the target changes. Only a failed allocation keeps the two calls from succeeding.
-/
theorem utilCopyToTarget_utilCopyFromTarget {writing reading : GpuOutcome Handle}
    (dmaBuf : ByteMem) (manager : GpuManager Handle)
    (distinct : Set.InjOn (fun index => getAddrMapVaddr ctx (pfnBuf index))
      {index | index < pfnNum})
    (aligned : ∀ index < pfnNum, pageSize ∣ (getAddrMapVaddr ctx (pfnBuf index)).toNat)
    (enough : nbytesTot ≤ pageSize * pfnNum)
    (writes : ∀ index < pfnNum, writing.CopiesPage nbytesTot index)
    (reads : ∀ index < pfnNum, reading.CopiesPage nbytesTot index) :
    let written := utilCopyToTarget ctx writing nbytesTot pfnBuf pfnNum dmaBuf manager
    let read := utilCopyFromTarget ctx reading nbytesTot pfnBuf pfnNum written.2.2
    (∀ address, (∀ byte < nbytesTot, address ≠ pagePlace ctx pfnBuf byte) →
      written.2.2.target address = manager.target address) ∧
    (written.1 = 0 ∨
      writing.malloc .fromDeviceDmaBuf = none ∧ written.1 = -Errno.ENOMEM.code) ∧
    (read.1 = 0 ∨ reading.malloc .fromDeviceDmaBuf = none ∧ read.1 = -Errno.ENOMEM.code) ∧
    (written.1 = 0 → read.1 = 0 → ∃ buffer, read.2.1 = some buffer ∧
      buffer.readBytes 0 nbytesTot = dmaBuf.readBytes 0 nbytesTot) := by
  have failure : -Errno.ENOMEM.code ≠ 0 := by decide
  have apart : Set.InjOn (pagePlace ctx pfnBuf) {byte | byte < nbytesTot} := by
    have places := BlockLayout.place_injOn aligned fun index inside index' inside' same =>
      distinct inside inside' (UInt64.toNat_inj.1 same)
    exact places.mono fun byte inside => Nat.lt_of_lt_of_le inside enough
  intro written read
  have first := @utilCopyToTarget_of_copies _ ctx writing nbytesTot pfnBuf pfnNum dmaBuf manager
    writes
  have second := @utilCopyFromTarget_of_copies _ ctx reading nbytesTot pfnBuf pfnNum written.2.2
    reads
  refine ⟨fun address outside => ?_, ?_, ?_, fun success success' => ?_⟩
  · rcases first with ⟨-, -, left⟩ | ⟨-, left⟩
    · exact congrFun (congrArg GpuManager.target left) address
    · rw [left]
      exact BlockLayout.scatter_of_outside (pageCopies_follows pfnNum 0) outside
  · exact first.elim (fun failed => Or.inr ⟨failed.1, failed.2.1⟩) fun done => Or.inl done.1
  · exact second.elim Or.inr fun done => Or.inl done.1
  · rcases first with ⟨-, failed, -⟩ | ⟨-, left⟩
    · exact absurd (failed.symm.trans success) failure
    rcases second with ⟨-, failed⟩ | ⟨-, block, handed⟩
    · exact absurd (failed.symm.trans success') failure
    refine ⟨_, handed, ByteMem.readBytes_congr fun byte inside => ?_⟩
    simp only [Nat.zero_add]
    calc ByteCopy.run written.2.2.target block
          (pageCopies ctx reading nbytesTot pfnBuf pfnNum 0) byte
      _ = written.2.2.target (pagePlace ctx pfnBuf byte) :=
          BlockLayout.gather_apply (pageCopies_follows pfnNum 0)
            ((pageCopies_covers_iff reads).2 enough) inside
      _ = ByteCopy.run dmaBuf manager.target
            ((pageCopies ctx writing nbytesTot pfnBuf pfnNum 0).map .swap)
            (pagePlace ctx pfnBuf byte) := congrFun left _
      _ = dmaBuf byte :=
          BlockLayout.scatter_apply (pageCopies_follows pfnNum 0)
            ((pageCopies_covers_iff writes).2 enough) apart inside

end RoundTrip

/-- A page and a byte, over two pages whose addresses descend. -/
theorem utilCopyToTarget_utilCopyFromTarget_twoPages :
    let dmaBuf : ByteMem := UInt8.ofNat
    let written := utilCopyToTarget twoPageCtx (fullCopies 4097) 4097 (fun index => index) 2 dmaBuf
      GpuManager.initial
    let read := utilCopyFromTarget twoPageCtx (fullCopies 4097) 4097 (fun index => index) 2
      written.2.2
    written.1 = 0 ∧ read.1 = 0 ∧ ∃ buffer, read.2.1 = some buffer ∧
      buffer.readBytes 0 4097 = dmaBuf.readBytes 0 4097 := by
  intro dmaBuf written read
  have vaddrs : ∀ index < 2, ∀ index' < 2,
      getAddrMapVaddr twoPageCtx index = getAddrMapVaddr twoPageCtx index' → index = index' := by
    decide
  rcases @utilCopyToTarget_utilCopyFromTarget _ twoPageCtx 4097 (fun index => index) 2
    (fullCopies 4097) (fullCopies 4097) dmaBuf GpuManager.initial
    (fun index inside index' inside' => vaddrs index inside index' inside') (by decide)
    (by decide) (by decide) (by decide) with ⟨-, success, success', readBack⟩
  have allocates : (fullCopies 4097).malloc .fromDeviceDmaBuf ≠ none := nofun
  have done := success.resolve_right fun failed => allocates failed.1
  have done' := success'.resolve_right fun failed => allocates failed.1
  exact ⟨done, done', readBack done done'⟩

/-! ## The buffers -/

section Buffers

variable (ctx : CtxStruct) (outcome : GpuOutcome Handle) (handle : Handle)
  (before after : GpuManager Handle)

def HeapEvent.ledgerEvent : HeapEvent → Ledger.Event GpuBuffer
  | .malloc buffer _ => .acquire buffer
  | .free buffer => .release buffer

/-- A call frees each buffer that it allocates exactly once, and no other one. -/
def ReleasedOnce : Prop :=
  ∃ made : List HeapEvent, after.heap = before.heap ++ made ∧
    Ledger.WellUsed (made.map HeapEvent.ledgerEvent) ∧
      Ledger.Balanced (made.map HeapEvent.ledgerEvent)

variable {before after}

theorem releasedOnce_of_nothing (same : after.heap = before.heap) : ReleasedOnce before after :=
  ⟨[], by rw [same, List.append_nil], trivial, Ledger.balanced_nil⟩

theorem releasedOnce_of_pair (buffer : GpuBuffer) (size : ℕ)
    (made : after.heap = before.heap ++ [.malloc buffer size, .free buffer]) :
    ReleasedOnce before after := by
  refine ⟨_, made, ⟨trivial, Set.mem_insert .., trivial⟩, ?_⟩
  exact Ledger.balanced_acquires_releases [buffer]

/-- A buffer that is allocated and not freed. -/
theorem not_releasedOnce_of_leak {made : List HeapEvent} (buffer : GpuBuffer) (size : ℕ)
    (heap : after.heap = before.heap ++ made) (allocated : .malloc buffer size ∈ made)
    (kept : .free buffer ∉ made) : ¬ReleasedOnce before after := by
  rintro ⟨made', heap', -, balanced⟩
  obtain rfl : made = made' := List.append_cancel_left (heap.symm.trans heap')
  have acquired : Ledger.Event.acquire buffer ∈ made.map HeapEvent.ledgerEvent :=
    List.mem_map.2 ⟨_, allocated, rfl⟩
  have unreleased : Ledger.Event.release buffer ∉ made.map HeapEvent.ledgerEvent := by
    rintro released
    rcases List.mem_map.1 released with ⟨event, member, same⟩
    cases event with
    | malloc => cases same
    | free other =>
        cases same
        exact kept member
  have equal := balanced buffer
  rw [List.count_eq_zero.2 unreleased] at equal
  exact List.count_eq_zero.1 equal.symm acquired

variable (manager : GpuManager Handle)

theorem releasedOnce_gpuIoctlGmemcpyToDev :
    ReleasedOnce manager (gpuIoctlGmemcpyToDev ctx outcome handle manager).2 ↔
      outcome.malloc .fromDeviceDmaBuf = none ∨ CopiesPages outcome manager := by
  rcases gpuIoctlGmemcpyToDev_cases ctx outcome handle manager with
    ⟨failed, -, left⟩ | ⟨block, allocated, copies, left⟩ | ⟨block, allocated, short, -, left⟩
  · exact iff_of_true (releasedOnce_of_nothing (by rw [left])) (Or.inl failed)
  · refine iff_of_true (releasedOnce_of_pair .fromDeviceDmaBuf manager.nbytesTot ?_)
      (Or.inr copies)
    rw [left]
    exact List.append_assoc ..
  · refine iff_of_false (not_releasedOnce_of_leak .fromDeviceDmaBuf manager.nbytesTot
      (congrArg GpuManager.heap left) (List.mem_singleton_self _) (by simp)) ?_
    rintro (failed | copies)
    · cases failed.symm.trans allocated
    · exact short copies

theorem releasedOnce_gpuIoctlGmemcpyFromDev :
    ReleasedOnce manager (gpuIoctlGmemcpyFromDev ctx outcome handle manager).2 ↔
      outcome.malloc .dmaBuf = none ∨ outcome.gdevRet.toInt < 0 ∨
        outcome.malloc .fromDeviceDmaBuf = none := by
  rcases gpuIoctlGmemcpyFromDev_cases ctx outcome handle manager with
    ⟨failed, -, left⟩ | ⟨-, refused, -, left⟩ | ⟨-, -, failed, -, left⟩ |
      ⟨allocated, accepted, allocated', -, -, left⟩ | ⟨allocated, accepted, allocated', -, -, left⟩
  · exact iff_of_true (releasedOnce_of_nothing (by rw [left])) (Or.inl failed)
  · refine iff_of_true (releasedOnce_of_pair .dmaBuf manager.nbytesTot ?_)
      (Or.inr (Or.inl refused))
    rw [left]
    exact List.append_assoc ..
  · refine iff_of_true (releasedOnce_of_pair .dmaBuf manager.nbytesTot ?_)
      (Or.inr (Or.inr failed))
    rw [left]
    exact List.append_assoc ..
  all_goals
    have heap := congrArg GpuManager.heap left
    simp only [GpuManager.addHeap, afterRequest, afterCopies, GpuManager.addCall,
      List.append_assoc] at heap
    refine iff_of_false (not_releasedOnce_of_leak .fromDeviceDmaBuf manager.nbytesTot heap
      (by simp) (by simp)) ?_
    rintro (failed | refused | failed)
    · exact allocated failed
    · exact accepted refused
    · exact allocated' failed

/--
The buffers of the two commands are freed exactly once: of a copy to the device unless a page falls
short, and of a copy from the device only if it ends before its pages are written.
-/
theorem gpuCopies_releasedOnce_iff :
    (ReleasedOnce manager (gpuIoctlGmemcpyToDev ctx outcome handle manager).2 ↔
      outcome.malloc .fromDeviceDmaBuf = none ∨ CopiesPages outcome manager) ∧
    (ReleasedOnce manager (gpuIoctlGmemcpyFromDev ctx outcome handle manager).2 ↔
      outcome.malloc .dmaBuf = none ∨ outcome.gdevRet.toInt < 0 ∨
        outcome.malloc .fromDeviceDmaBuf = none) :=
  ⟨releasedOnce_gpuIoctlGmemcpyToDev ctx outcome handle manager,
    releasedOnce_gpuIoctlGmemcpyFromDev ctx outcome handle manager⟩

end Buffers

/-- A copy from the device to one page whose write fails: its buffer is freed twice, and the one
that the copy loop allocates never. -/
theorem gpuCopies_doubleFree :
    let outcome := { fullCopies 4096 with copied := fun _ => -1 }
    let page := (ByteMem.zero.set FhGdevIoctl.dmaSize 4096).set FhGdevIoctl.bufPfnNum 1
    let manager := (GpuManager.initial : GpuManager Unit).setPage page
    let after := (gpuIoctlGmemcpyFromDev twoPageCtx outcome () manager).2
    after.heap = [.malloc .dmaBuf 4096, .malloc .fromDeviceDmaBuf 4096, .free .dmaBuf,
      .free .dmaBuf] ∧ ¬ReleasedOnce manager after := by
  intro outcome page manager after
  have heap : after.heap = manager.heap ++ [.malloc .dmaBuf 4096, .malloc .fromDeviceDmaBuf 4096,
      .free .dmaBuf, .free .dmaBuf] := by decide
  refine ⟨heap, not_releasedOnce_of_leak .fromDeviceDmaBuf 4096 heap ?_ ?_⟩
  · simp
  · simp

end Acai
