import Acai.Guest.Errors
import Acai.Guest.Isolation
import Acai.Guest.VerifyMapping
import Acai.Lib.Trace

/-!
# The discipline of the escape lock

Every operation of the stub driver works on the one escape page, under the
spinlock `faultdata_lock`. This file runs any sequence of the driver's operations
against any host and asks three things of the lock: nobody takes it while holding
it, it is free between two operations, and it is held at every escape.

Two operations break this. `fh_char_ctrl_write` takes the lock again on each of
its ways out, where it should release it. `fh_bridge_mmap` escapes without the
lock as soon as it gets to the escape at all.
-/

namespace Acai

open Prog

/-- An operation of the stub driver, with its arguments. -/
inductive DriverOp where
  | file (op : FileOp)
  | verifyMapping (kernel : PageKernel) (escapeSize : ℕ)
  | init (args : InitArgs)
  | cleanup (escapeSize : ℕ)

def DriverOp.program (fuel : ℕ) : DriverOp → Prog ℤ
  | file op => op.program fuel
  | verifyMapping kernel escapeSize => Prod.fst <$> fhVerifyMapping fuel kernel escapeSize
  | init args => faulthookInit fuel args
  | cleanup escapeSize => faulthookCleanup escapeSize

/-- A sequence of operations keeps the discipline. The next operation starts when the one before
it has returned. -/
def DisciplinedRun {σ : Type} (answer : σ → ByteMem → σ × ByteMem) (fuel : ℕ) :
    List DriverOp → Machine σ → Prop
  | [], machine => machine.locked = false
  | op :: ops, machine => machine.locked = false ∧
      (op.program fuel).Ensures answer Access.Disciplined machine fun _ machine' =>
        DisciplinedRun answer fuel ops machine'

/-- A mapping that gets as far as the escape. -/
structure MmapArgs.Escapes (args : MmapArgs) : Prop where
  infoAlloc : args.infoAlloc = true
  size_pos : 0 < args.size
  allocated : args.pfnStart ≠ none

/-- A mapping that does not get to the escape does not touch the page. -/
theorem fhBridgeMmap_of_not_escapes {args : MmapArgs} (stays : ¬args.Escapes) :
    ∃ ret, ∀ fuel, fhBridgeMmap fuel args = pure ret := by
  by_cases noInfo : (!args.infoAlloc) = true
  · exact ⟨-Errno.ENOMEM.code, fun fuel => by rw [fhBridgeMmap, if_pos noInfo]⟩
  by_cases invalid : args.size ≤ 0
  · exact ⟨-Errno.EINVAL.code, fun fuel => by rw [fhBridgeMmap, if_neg noInfo, if_pos invalid]⟩
  cases pages : args.pfnStart with
  | none =>
      exact ⟨-Errno.ENOMEM.code, fun fuel => by
        rw [fhBridgeMmap, if_neg noInfo, if_neg invalid, pages]⟩
  | some pfnStart =>
      exact absurd ⟨by simpa using noInfo, by omega, by simp [pages]⟩ stays

def DriverOp.KeepsDiscipline : DriverOp → Prop
  | file (.ctrlWrite _) => False
  | file (.bridgeMmap args) => ¬args.Escapes
  | _ => True

section Disciplined

variable {σ : Type} {answer : σ → ByteMem → σ × ByteMem} {machine : Machine σ}

theorem disciplined_fhCharOpen (args : OpenArgs) (free : machine.locked = false) :
    (fhCharOpen args).Ensures answer Access.Disciplined machine
      fun _ machine' => machine'.locked = false := by
  rw [fhCharOpen]
  split
  · exact (ensures_pure _).mpr free
  · refine disciplined_acquire free fun _ locked => ?_
    refine LockFree.disciplined_bind (by simp) locked fun _ _ locked => ?_
    refine LockFree.disciplined_bind (by simp) locked fun length _ locked => ?_
    refine LockFree.disciplined_bind (by simp) locked fun _ _ locked => ?_
    refine LockFree.disciplined_bind (by simp) locked fun _ _ locked => ?_
    refine LockFree.disciplined_bind (lockFree_escapeChecked _ _ ?_) locked fun result machine' _ =>
      disciplined_release result machine'
    exact LockFree.bind (by simp) fun fd => by simp

theorem disciplined_fhCharClose (fd : ℤ) (free : machine.locked = false) :
    (fhCharClose fd).Ensures answer Access.Disciplined machine
      fun _ machine' => machine'.locked = false := by
  refine disciplined_acquire free fun _ locked => ?_
  refine LockFree.disciplined_bind (by simp) locked fun _ _ locked => ?_
  exact LockFree.disciplined_bind (lockFree_escapeChecked _ _ (by simp)) locked
    fun ret machine' _ => disciplined_release ret machine'

theorem disciplined_fhCharCtrlRead (args : CtrlArgs) (free : machine.locked = false) :
    (fhCharCtrlRead args).Ensures answer Access.Disciplined machine
      fun _ machine' => machine'.locked = false := by
  refine disciplined_acquire free fun _ locked => ?_
  refine LockFree.disciplined_bind (by simp) locked fun _ _ locked => ?_
  refine LockFree.disciplined_bind (by simp) locked fun _ _ locked => ?_
  refine LockFree.disciplined_bind (by simp) locked fun _ _ locked => ?_
  refine LockFree.disciplined_bind (by simp) locked fun _ _ locked => ?_
  refine LockFree.disciplined_bind (by simp) locked fun ret _ locked => ?_
  split
  · exact disciplined_release _ _
  · refine LockFree.disciplined_bind (by simp) locked fun _ _ locked => ?_
    refine LockFree.disciplined_bind (by simp) locked fun _ _ locked => ?_
    split
    · exact disciplined_release _ _
    · refine LockFree.disciplined_bind (by simp) locked fun count _ locked => ?_
      exact LockFree.disciplined_bind (by simp) locked fun _ _ _ => disciplined_release _ _

theorem disciplined_charSgdmaReadWrite (fuel : ℕ) (args : SgdmaArgs)
    (free : machine.locked = false) :
    (charSgdmaReadWrite fuel args).Ensures answer Access.Disciplined machine
      fun _ machine' => machine'.locked = false := by
  rw [charSgdmaReadWrite]
  split
  · exact (ensures_pure _).mpr free
  split
  · exact (ensures_pure _).mpr free
  refine disciplined_acquire free fun _ locked => ?_
  refine LockFree.disciplined_bind (lockFree_transferChunkToHost _ _ _) locked
    fun sent _ locked => ?_
  dsimp only
  split
  · exact LockFree.disciplined_bind (by simp) locked fun _ _ _ => disciplined_release _ _
  · exact LockFree.disciplined_bind (lockFree_dmaEscape _ _) locked fun _ _ _ =>
      disciplined_release _ _

theorem lockFree_fixupLoop (kernel : PageKernel) (fuel index : ℕ) (fixup : MappingFixup) :
    (fixupLoop kernel fuel index fixup).LockFree := by
  induction fuel generalizing index fixup with
  | zero => simp [fixupLoop]
  | succ fuel ih =>
      rw [fixupLoop]
      refine LockFree.bind (by simp) fun pfnNr => ?_
      split
      · exact LockFree.bind (by simp) fun pfn => ih _ _
      · simp

theorem lockFree_verifyRounds (kernel : PageKernel) (fuel rounds : ℕ) (fixup : MappingFixup) :
    (verifyRounds kernel fuel rounds fixup).LockFree := by
  induction rounds generalizing fixup with
  | zero => simp [verifyRounds]
  | succ rounds ih =>
      rw [verifyRounds]
      refine LockFree.bind (by simp) fun ret => ?_
      split
      · simp
      · refine LockFree.bind (by simp) fun hostRet => ?_
        split
        · simp
        · refine LockFree.bind (lockFree_fixupLoop _ _ _ _) fun fixup' => ?_
          refine LockFree.bind (by simp) fun lastPfn => ?_
          split
          · exact ih fixup'
          · simp

theorem disciplined_fhVerifyMapping (fuel : ℕ) (kernel : PageKernel) (escapeSize : ℕ)
    (free : machine.locked = false) :
    (fhVerifyMapping fuel kernel escapeSize).Ensures answer Access.Disciplined machine
      fun _ machine' => machine'.locked = false := by
  refine disciplined_acquire free fun _ locked => ?_
  refine LockFree.disciplined_bind (by simp) locked fun _ _ locked => ?_
  refine LockFree.disciplined_bind (by simp) locked fun _ _ locked => ?_
  exact LockFree.disciplined_bind (lockFree_verifyRounds _ _ _ _) locked fun _ _ _ =>
    disciplined_release _ _

theorem disciplined_faulthookCleanup (escapeSize : ℕ) (free : machine.locked = false) :
    (faulthookCleanup escapeSize).Ensures answer Access.Disciplined machine
      fun _ machine' => machine'.locked = false := by
  refine disciplined_acquire free fun _ locked => ?_
  refine LockFree.disciplined_bind (by simp) locked fun _ _ locked => ?_
  exact LockFree.disciplined_bind (by simp) locked fun _ _ _ => disciplined_release _ _

theorem disciplined_faulthookInit (fuel : ℕ) (args : InitArgs) (free : machine.locked = false) :
    (faulthookInit fuel args).Ensures answer Access.Disciplined machine
      fun _ machine' => machine'.locked = false := by
  have reset : (resetEscapePage args).Ensures answer Access.Disciplined machine
      fun _ machine' => machine'.locked = false := by
    rw [resetEscapePage]
    split
    · exact (ensures_pure _).mpr free
    · exact (ensures_storeBytes _ _).mpr ⟨trivial, free⟩
  rw [faulthookInit, ensures_bind]
  refine reset.imp fun _ machine' free => ?_
  rw [ensures_bind, ensures_loadField]
  refine ⟨trivial, disciplined_acquire free fun _ locked => ?_⟩
  refine LockFree.disciplined_bind (by simp) locked fun _ _ locked => ?_
  rw [ensures_bind, ensures_release]
  refine ⟨trivial, ?_⟩
  split
  · rw [ensures_bind]
    exact (disciplined_fhVerifyMapping _ _ _ rfl).imp fun _ _ free => (ensures_pure _).mpr free
  · exact (ensures_pure _).mpr rfl

theorem disciplined_fhCharCtrlIoctl (fd : ℤ) (cmd arg : ℕ) (free : machine.locked = false) :
    (fhCharCtrlIoctl fd cmd arg).Ensures answer Access.Disciplined machine
      fun _ machine' => machine'.locked = false := by
  simp only [fhCharCtrlIoctl, ensures_bind, ensures_storeInt, ensures_storeField, ensures_pure]
  exact ⟨trivial, trivial, trivial, free⟩

theorem disciplined_fhBridgeMmap {args : MmapArgs} (fuel : ℕ) (stays : ¬args.Escapes)
    (free : machine.locked = false) :
    (fhBridgeMmap fuel args).Ensures answer Access.Disciplined machine
      fun _ machine' => machine'.locked = false := by
  rcases fhBridgeMmap_of_not_escapes stays with ⟨ret, returns⟩
  rw [returns]
  exact (ensures_pure ret).mpr free

theorem DriverOp.disciplined {op : DriverOp} (keeps : op.KeepsDiscipline) (fuel : ℕ)
    (free : machine.locked = false) :
    (op.program fuel).Ensures answer Access.Disciplined machine
      fun _ machine' => machine'.locked = false := by
  cases op with
  | file op =>
      cases op with
      | charOpen args => exact (ensures_map _ _).mpr (disciplined_fhCharOpen args free)
      | charClose fd => exact disciplined_fhCharClose fd free
      | ctrlRead args => exact (ensures_map _ _).mpr (disciplined_fhCharCtrlRead args free)
      | ctrlWrite args => exact keeps.elim
      | ctrlIoctl fd cmd arg => exact disciplined_fhCharCtrlIoctl fd cmd arg free
      | bridgeMmap args => exact disciplined_fhBridgeMmap fuel keeps free
      | sgdmaReadWrite args => exact disciplined_charSgdmaReadWrite fuel args free
  | verifyMapping kernel escapeSize =>
      exact (ensures_map _ _).mpr (disciplined_fhVerifyMapping fuel kernel escapeSize free)
  | init args => exact disciplined_faulthookInit fuel args free
  | cleanup escapeSize => exact disciplined_faulthookCleanup escapeSize free

theorem disciplinedRun_of_keeps {ops : List DriverOp} (keeps : ∀ op ∈ ops, op.KeepsDiscipline)
    (fuel : ℕ) (free : machine.locked = false) : DisciplinedRun answer fuel ops machine := by
  induction ops generalizing machine with
  | nil => exact free
  | cons op ops ih =>
      rw [List.forall_mem_cons] at keeps
      exact ⟨free, (DriverOp.disciplined keeps.1 fuel free).imp fun _ _ free' => ih keeps.2 free'⟩

end Disciplined

/-! ## Operations that break the discipline -/

/-- A host that does not answer. -/
def mute (peer : Unit) (page : ByteMem) : Unit × ByteMem := (peer, page)

section Mute

variable {machine : Machine Unit}

theorem run_fhDoFaulthook_mute (action : FhAction) (machine : Machine Unit) :
    (fhDoFaulthook action).run mute machine =
      (.done (-Errno.ENXIO.code), escaping action machine) := by
  have idle : (escaping action machine).answered mute = escaping action machine :=
    Machine.answered_of_idle rfl
  have turn : (escaping action machine).page.get FaultData.turn = FhTurn.host.code :=
    escapePage_turn action _ machine.page
  rw [run_fhDoFaulthook, idle, turn, if_pos (by decide)]

theorem run_escapeChecked_mute {α : Type} (action : FhAction) (fail : ℤ → α) (success : Prog α)
    (machine : Machine Unit) :
    (escapeChecked action fail success).run mute machine =
      (.done (fail (-Errno.ENXIO.code)), escaping action machine) := by
  rw [escapeChecked, run_bind_of_done _ (run_fhDoFaulthook_mute action machine),
    if_pos (by decide), run_pure]

theorem run_transferChunkToHost_mute (fuel : ℕ) (data : List UInt8) (infoCtx : Int32)
    (machine : Machine Unit) :
    ∃ ret machine', (transferChunkToHost fuel data infoCtx).run mute machine =
      (.done ret, machine') := by
  rw [transferChunkToHost]
  split
  · exact ⟨_, _, rfl⟩
  · have handshake : ∃ machine', (sendHandshake data.length infoCtx).run mute machine =
        (.done (-Errno.ENXIO.code), machine') :=
      ⟨_, by rw [run_sendHandshake]; exact run_fhDoFaulthook_mute _ _⟩
    rcases handshake with ⟨machine', handshake⟩
    rw [run_bind_of_done _ handshake, if_pos (by decide)]
    exact ⟨_, _, rfl⟩

theorem returns_fhCharOpen_mute (args : OpenArgs) (free : machine.locked = false) :
    ∃ value machine', (fhCharOpen args).run mute machine = (.done value, machine') := by
  rw [fhCharOpen]
  split
  · exact ⟨_, _, rfl⟩
  · simp only [run_bind, run_acquire_of_free _ free, andThen_done, run_storeBytes, run_strlen,
      run_storeField, run_escapeChecked_mute, run_release]
    exact ⟨_, _, rfl⟩

theorem returns_fhCharCtrlRead_mute (args : CtrlArgs) (free : machine.locked = false) :
    ∃ value machine', (fhCharCtrlRead args).run mute machine = (.done value, machine') := by
  simp only [fhCharCtrlRead]
  rw [run_bind_of_done _ (run_acquire_of_free _ free), run_bind_of_done _ (run_storeInt _ _ _ _),
    run_bind_of_done _ (run_storeInt _ _ _ _), run_bind_of_done _ (run_storeField _ _ _ _),
    run_bind_of_done _ (run_fhDoFaulthook_mute _ _), run_bind_of_done _ (run_loadInt _ _ _)]
  -- what the page holds does not matter here
  generalize escaping .read _ = escaped
  generalize escaped.page.getInt ActionCommon.ret = ret
  split
  · exact ⟨_, _, rfl⟩
  · rw [run_bind_of_done _ (run_loadField _ _ _), run_bind_of_done _ (run_loadInt _ _ _)]
    split
    · exact ⟨_, _, rfl⟩
    · exact ⟨_, _, rfl⟩

theorem returns_charSgdmaReadWrite_mute (fuel : ℕ) (args : SgdmaArgs)
    (free : machine.locked = false) :
    ∃ value machine',
      (charSgdmaReadWrite fuel args).run mute machine = (.done value, machine') := by
  rw [charSgdmaReadWrite]
  split
  · exact ⟨_, _, rfl⟩
  split
  · exact ⟨_, _, rfl⟩
  rename_i pinned _ _
  rcases run_transferChunkToHost_mute fuel (chunkBytes pinned.pageChunks)
    (Int32.ofInt FhAction.dma.code) { machine with locked := true } with ⟨sent, machine', ran⟩
  simp only [sgdmaLocked]
  rw [run_bind_of_done _ (run_acquire_of_free _ free), run_bind_of_done _ ran]
  split
  · exact ⟨_, _, rfl⟩
  · rw [run_bind_of_done _ (by rw [run_dmaEscape]; exact run_escapeChecked_mute _ _ _ _)]
    exact ⟨_, _, rfl⟩

theorem returns_fhVerifyMapping_mute (fuel : ℕ) (kernel : PageKernel) (escapeSize : ℕ)
    (free : machine.locked = false) :
    ∃ value machine', (fhVerifyMapping (fuel + 1) kernel escapeSize).run mute machine =
      (.done value, machine') := by
  have rounds : ∀ machine' : Machine Unit, (verifyRounds kernel (fuel + 1) (fuel + 1) .empty).run
      mute machine' = (.done .empty, escaping .getEmptyMappings machine') := by
    intro machine'
    rw [verifyRounds, run_bind_of_done _ (run_fhDoFaulthook_mute _ _), if_pos (by decide), run_pure]
  simp only [fhVerifyMapping, run_bind, run_acquire_of_free _ free, andThen_done, run_storeField,
    rounds, run_release]
  exact ⟨_, _, rfl⟩

theorem returns_faulthookInit_mute (fuel : ℕ) (args : InitArgs) (free : machine.locked = false) :
    ∃ value machine',
      (faulthookInit (fuel + 1) args).run mute machine = (.done value, machine') := by
  have reset : ∃ cleared, (resetEscapePage args).run mute machine = (.done (), cleared) ∧
      cleared.locked = false := by
    rw [resetEscapePage]
    split
    · exact ⟨_, rfl, free⟩
    · exact ⟨_, rfl, free⟩
  rcases reset with ⟨cleared, reset, free'⟩
  rw [faulthookInit, run_bind_of_done _ reset, run_bind_of_done _ (run_loadField _ _ _),
    run_bind_of_done _ (run_acquire_of_free _ free'),
    run_bind_of_done _ (run_fhDoFaulthook_mute _ _), run_bind_of_done _ (run_release _ _)]
  split
  · rcases @returns_fhVerifyMapping_mute { escaping .setup { cleared with locked := true } with
      locked := false } fuel args.kernel args.escapeSize rfl with ⟨value, machine', verified⟩
    rw [run_bind_of_done _ verified]
    exact ⟨_, _, rfl⟩
  · exact ⟨_, _, rfl⟩

theorem returns_fhBridgeMmap {args : MmapArgs} (fuel : ℕ) (stays : ¬args.Escapes)
    (machine : Machine Unit) :
    ∃ value machine', (fhBridgeMmap fuel args).run mute machine = (.done value, machine') := by
  rcases fhBridgeMmap_of_not_escapes stays with ⟨ret, returns⟩
  exact ⟨ret, machine, by rw [returns, run_pure]⟩

/-- An operation that keeps the discipline returns when nobody answers. -/
theorem DriverOp.returns_mute {op : DriverOp} (keeps : op.KeepsDiscipline) (fuel : ℕ)
    (free : machine.locked = false) :
    ∃ value machine', (op.program (fuel + 1)).run mute machine = (.done value, machine') := by
  have mapped : ∀ {α : Type} {program : Prog α} (f : α → ℤ),
      (∃ value machine', program.run mute machine = (.done value, machine')) →
        ∃ value machine', (f <$> program).run mute machine = (.done value, machine') := by
    rintro α program f ⟨value, machine', ran⟩
    exact ⟨_, _, by rw [map_def, run_bind_of_done _ ran, run_pure]⟩
  cases op with
  | file op =>
      cases op with
      | charOpen args => exact mapped _ (returns_fhCharOpen_mute args free)
      | charClose fd =>
          simp only [DriverOp.program, FileOp.program, fhCharClose, run_bind,
            run_acquire_of_free _ free, andThen_done, run_storeInt, run_escapeChecked_mute,
            run_release]
          exact ⟨_, _, rfl⟩
      | ctrlRead args => exact mapped _ (returns_fhCharCtrlRead_mute args free)
      | ctrlWrite args => exact keeps.elim
      | ctrlIoctl fd cmd arg => exact ⟨_, _, rfl⟩
      | bridgeMmap args => exact returns_fhBridgeMmap _ keeps machine
      | sgdmaReadWrite args => exact returns_charSgdmaReadWrite_mute _ args free
  | verifyMapping kernel escapeSize =>
      exact mapped _ (returns_fhVerifyMapping_mute fuel kernel escapeSize free)
  | init args => exact returns_faulthookInit_mute fuel args free
  | cleanup escapeSize =>
      simp only [DriverOp.program, faulthookCleanup, run_bind, run_acquire_of_free _ free,
        andThen_done, run_fhDoFaulthook_mute, run_storeBytes, run_release]
      exact ⟨_, _, rfl⟩

end Mute

section Violations

variable {σ : Type} {answer : σ → ByteMem → σ × ByteMem} {machine : Machine σ}

/-- The end of `fh_char_ctrl_write` finds the lock taken. -/
theorem not_disciplined_ctrlWriteCleanUp {ret : ℤ} {post : ℤ → Machine σ → Prop}
    (locked : machine.locked = true) :
    ¬(ctrlWriteCleanUp ret).Ensures answer Access.Disciplined machine post := by
  intro ensures
  rw [ctrlWriteCleanUp, ensures_bind, ensures_acquire, locked] at ensures
  cases ensures.1

theorem not_disciplined_fhCharCtrlWrite (args : CtrlArgs) {post : ℤ → Machine σ → Prop}
    (free : machine.locked = false) :
    ¬(fhCharCtrlWrite args).Ensures answer Access.Disciplined machine post := by
  intro ensures
  have filled := ((((ensures.next (run_acquire_of_free _ free)).next (run_storeInt _ _ _ _)).next
    (run_storeInt _ _ _ _)).next (run_storeField _ _ _ _)).next (run_loadField _ _ _)
  have copied := filled.next (run_loadField _ _ _)
  split at copied
  · exact not_disciplined_ctrlWriteCleanUp rfl copied
  · have replied := (copied.next (run_fhDoFaulthook _ _ _)).next (run_loadInt _ _ _)
    split at replied
    · exact not_disciplined_ctrlWriteCleanUp rfl replied
    · have finished := (replied.next (run_loadField _ _ _)).next (run_loadInt _ _ _)
      exact not_disciplined_ctrlWriteCleanUp rfl finished

theorem not_disciplined_fhDoFaulthook {action : FhAction} {post : ℤ → Machine σ → Prop}
    (free : machine.locked = false) :
    ¬(fhDoFaulthook action).Ensures answer Access.Disciplined machine post := by
  intro ensures
  have ready := (((ensures.next (run_increment _ _)).next (run_storeField _ _ _ _)).next
    (run_storeField _ _ _ _)).next (run_storeField _ _ _ _)
  rw [ensures_bind, ensures_doorbell] at ready
  have held : machine.locked = true := ready.1
  rw [free] at held
  cases held

theorem mmapPage_pfnSize_le (args : MmapArgs) (page : ByteMem) :
    (mmapPage args page).get ActionMmapDevice.pfnSize - 0 ≤ args.size.toNat / pageSize := by
  rw [mmapPage, ByteMem.get_set_same]
  exact Nat.mod_le _ _

/-- A mapping that gets to the escape makes it without the lock. -/
theorem not_disciplined_fhBridgeMmap {args : MmapArgs} {fuel : ℕ} {post : ℤ → Machine σ → Prop}
    (escapes : args.Escapes) (enough : args.size.toNat / pageSize < fuel)
    (free : machine.locked = false) :
    ¬(fhBridgeMmap fuel args).Ensures answer Access.Disciplined machine post := by
  rcases Option.ne_none_iff_exists'.mp escapes.allocated with ⟨pfnStart, allocated⟩
  have infoAlloc : ¬(!args.infoAlloc) = true := by simp [escapes.infoAlloc]
  rcases run_mmapPfnLoop answer { machine with page := mmapPage args machine.page }
    pfnStart.toNat 0 with ⟨page, looped⟩
  have loop := looped fuel (lt_of_le_of_lt (mmapPage_pfnSize_le args _) enough)
  simp only [mmapPage] at loop
  intro ensures
  rw [fhBridgeMmap, if_neg infoAlloc, if_neg (not_le.mpr escapes.size_pos), allocated] at ensures
  simp only [ensures_bind, ensures_storeBytes, ensures_storeInt, ensures_storeField,
    Machine.storing] at ensures
  rcases ensures with ⟨-, -, -, -, -, -, -, -, looping⟩
  have listed := looping.2 _ _ loop
  rw [escapeChecked, ensures_bind] at listed
  refine not_disciplined_fhDoFaulthook ?_ listed
  exact free

theorem DriverOp.violates {op : DriverOp} (breaks : ¬op.KeepsDiscipline) :
    ∃ enough, ∀ fuel ≥ enough, ∀ machine : Machine σ, machine.locked = false →
      ∀ post, ¬(op.program fuel).Ensures answer Access.Disciplined machine post := by
  cases op with
  | file op =>
      cases op with
      | ctrlWrite args =>
          exact ⟨0, fun fuel _ machine free post => not_disciplined_fhCharCtrlWrite args free⟩
      | bridgeMmap args =>
          refine ⟨args.size.toNat / pageSize + 1, fun fuel enough machine free post => ?_⟩
          exact not_disciplined_fhBridgeMmap (not_not.mp breaks) enough free
      | _ => exact absurd trivial breaks
  | _ => exact absurd trivial breaks

end Violations

/-- The operations that keep the discipline return to a host that does not answer, so a run
against it gets to the first operation that does not. -/
theorem keeps_of_disciplinedRun (ops : List DriverOp) :
    ∃ enough, ∀ fuel ≥ enough, ∀ machine : Machine Unit,
      DisciplinedRun mute fuel ops machine → ∀ op ∈ ops, op.KeepsDiscipline := by
  induction ops with
  | nil => exact ⟨0, by simp⟩
  | cons op ops ih =>
      rcases ih with ⟨enough, later⟩
      by_cases keeps : op.KeepsDiscipline
      · refine ⟨enough + 1, ?_⟩
        rintro fuel fuel_ge machine ⟨free, ensures⟩
        rcases Nat.exists_eq_add_one_of_ne_zero (show fuel ≠ 0 by omega) with ⟨fuel, rfl⟩
        rcases op.returns_mute keeps fuel free with ⟨value, machine', returned⟩
        have rest := later (fuel + 1) (by omega) machine' (ensures.2 value machine' returned)
        exact List.forall_mem_cons.mpr ⟨keeps, rest⟩
      · rcases op.violates keeps with ⟨needed, violates⟩
        refine ⟨needed, ?_⟩
        rintro fuel fuel_ge machine ⟨free, ensures⟩
        exact absurd ensures (violates fuel fuel_ge machine free _)

/--
A sequence of driver operations keeps the discipline of the escape lock against
every host exactly when it has no write to the control device and no mapping
that gets to the escape.
-/
theorem driver_lockDiscipline_iff (ops : List DriverOp) :
    (∀ (σ : Type) (answer : σ → ByteMem → σ × ByteMem) (fuel : ℕ) (machine : Machine σ),
        machine.locked = false → DisciplinedRun answer fuel ops machine) ↔
      ∀ op ∈ ops, op.KeepsDiscipline := by
  constructor
  · intro disciplined
    rcases keeps_of_disciplinedRun ops with ⟨enough, keeps⟩
    let machine : Machine Unit := ⟨ByteMem.zero, false, 0, ()⟩
    exact keeps enough (le_refl enough) machine (disciplined Unit mute enough machine rfl)
  · intro keeps σ answer fuel machine free
    exact disciplinedRun_of_keeps keeps fuel free

/-- A write to the control device waits for the lock that it holds. -/
theorem ctrlWrite_locks_twice :
    ¬∀ (ops : List DriverOp) (σ : Type) (answer : σ → ByteMem → σ × ByteMem) (fuel : ℕ)
      (machine : Machine σ), machine.locked = false → DisciplinedRun answer fuel ops machine := by
  intro claim
  have run := claim [.file (.ctrlWrite ⟨0, 0, 4, 0⟩)] Unit mute 0 ⟨ByteMem.zero, false, 0, ()⟩ rfl
  exact not_disciplined_fhCharCtrlWrite _ rfl run.2

end Acai
