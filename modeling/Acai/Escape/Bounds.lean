import Acai.Escape.Accesses
import Acai.Guest.LockDiscipline

/-!
# The bounds of the escape page

The guest reserves the escape page with a size of its own choice, and the manager
maps a page of `ESCAPE_PAGE_SIZE` bytes; it only warns when the two differ. Each
action then computes its own bound: `fh_verify_mapping` from the size of the
guest, the transfer of escape data from the constant of the host, the mapping of
a device from nothing at all. This file determines, for each use of the page,
when every byte that it reads or writes lies within both sizes.

The accesses of the guest's routines are those of their runs; those of the host's
handlers are the listed ones.
-/

namespace Acai

open Prog

/-- The bytes of the escape page that both sides have. -/
def escapeLimit (escapeSize : ℕ) : ℕ := min escapeSize escapePageSize

/-! ## The handlers of the host -/

/-- The numbers without a mapping that a request to list them asks for. -/
def emptyMappingsNr (manager : Manager) (page : ByteMem) : ℕ :=
  let start := searchStart manager.ctx (page.get ActionEmptyMappings.lastPfn)
  min (min hostPfnMax (page.get ActionEmptyMappings.pfnMaxNrGuest))
    (unmappedFrom manager.ctx start (manager.ctx.addrMapPfnMax.toNat - start)).length

/-- What a request has to leave room for on the page, by case. -/
def FaultCase.Fits (limit : ℕ) (outcome : FaultOutcome) (manager : Manager) (page : ByteMem) :
    FaultCase → Prop
  | mmap => 104 ≤ limit ∧
      (outcome.malloc ≠ none → 104 + 8 * page.get ActionMmapDevice.pfnSize ≤ limit)
  | unmap => 72 ≤ limit ∧
      (outcome.malloc ≠ none → 72 + 8 * page.get ActionUnmap.pfnSize ≤ limit ∧
        (manager.transfer.infoCtx = FhAction.dma.code → 88 ≤ limit))
  | getEmptyMappings => 68 + 8 * emptyMappingsNr manager page ≤ limit
  | transferEscapeData => 36 ≤ limit ∧
      (page.getInt ActionTransferEscapeData.status = TransferStatus.transferSize.code →
        52 ≤ limit) ∧
      (page.getInt ActionTransferEscapeData.status = TransferStatus.transferData.code →
        40 ≤ limit ∧
        (u64 (manager.transfer.chunk + chunkTransfer page) ≤ manager.transfer.size →
          40 + chunkTransfer page ≤ limit))

section Host

variable {limit : ℕ} {outcome : FaultOutcome} {manager : Manager} {page : ByteMem}

theorem Field.read_within_iff (field : Field) :
    field.read.Within limit ↔ field.width = 0 ∨ field.offset + field.width ≤ limit :=
  Access.within_load_iff

theorem Field.written_within_iff (field : Field) :
    field.written.Within limit ↔ field.width = 0 ∨ field.offset + field.width ≤ limit :=
  Access.within_store_iff

/-- The entries of a list of words that begins at `base`. -/
theorem words_within_iff {base : ℕ} (access : ℕ → Access)
    (word : ∀ index, (access index).Within limit ↔ base + 8 * (index + 1) ≤ limit) (count : ℕ) :
    (∀ entry ∈ (List.range count).map access, entry.Within limit) ↔
      count = 0 ∨ base + 8 * count ≤ limit := by
  simp only [List.mem_map, List.mem_range, forall_exists_index, and_imp, forall_apply_eq_imp_iff₂,
    word]
  constructor
  · intro inside
    rcases count with _ | count
    · exact Or.inl rfl
    · exact Or.inr (inside count (by omega))
  · intro inside index index_lt
    omega

theorem setRetAndErrNoAccesses_within_iff :
    (∀ access ∈ setRetAndErrNoAccesses, access.Within limit) ↔ 48 ≤ limit := by
  simp only [setRetAndErrNoAccesses, List.forall_mem_cons, Field.written_within_iff,
    ActionCommon.fd, ActionCommon.ret, ActionCommon.errNo, dataField, FaultData.data]
  simp
  omega

theorem mmapPfns_within_iff (count : ℕ) :
    (∀ access ∈ (List.range count).map (fun index => (ActionMmapDevice.pfn index).read),
      access.Within limit) ↔ count = 0 ∨ 104 + 8 * count ≤ limit := by
  apply words_within_iff
  intro index
  rw [Field.read_within_iff]
  simp only [ActionMmapDevice.pfn, dataField, FaultData.data]
  omega

theorem unmapPfns_within_iff (count : ℕ) :
    (∀ access ∈ (List.range count).map (fun index => (ActionUnmap.pfn index).read),
      access.Within limit) ↔ count = 0 ∨ 72 + 8 * count ≤ limit := by
  apply words_within_iff
  intro index
  rw [Field.read_within_iff]
  simp only [ActionUnmap.pfn, dataField, FaultData.data]
  omega

theorem emptyMappingsPfns_within_iff (count : ℕ) :
    (∀ access ∈ (List.range count).map (fun index => (ActionEmptyMappings.pfn index).written),
      access.Within limit) ↔ count = 0 ∨ 68 + 8 * count ≤ limit := by
  apply words_within_iff
  intro index
  rw [Field.written_within_iff]
  simp only [ActionEmptyMappings.pfn, dataField, FaultData.data]
  omega

theorem handleMmapAccesses_within_iff :
    (∀ access ∈ handleMmapAccesses outcome page, access.Within limit) ↔
      FaultCase.mmap.Fits limit outcome manager page := by
  simp only [FaultCase.Fits]
  cases allocated : outcome.malloc with
  | none =>
      simp [handleMmapAccesses, allocated, Field.read_within_iff, ActionMmapDevice.pfnSize,
        dataField, FaultData.data]
  | some block =>
      simp only [handleMmapAccesses, allocated, List.forall_mem_cons, List.forall_mem_append,
        mmapPfns_within_iff, setRetAndErrNoAccesses_within_iff, Field.read_within_iff]
      generalize page.get ActionMmapDevice.pfnSize = pfnSize
      simp [ActionMmapDevice.pfnSize, ActionMmapDevice.vmPgoff, ActionMmapDevice.vmPageProt,
        ActionMmapDevice.vmFlags, ActionCommon.fd, dataField, FaultData.data]
      omega

theorem doDmaAccesses_within_iff (setRet : 48 ≤ limit) :
    (∀ access ∈ doDmaAccesses manager page, access.Within limit) ↔
      (manager.transfer.infoCtx = FhAction.dma.code → 88 ≤ limit) := by
  by_cases announced : manager.transfer.infoCtx = FhAction.dma.code
  swap
  · simp only [doDmaAccesses, ne_eq, announced, not_false_eq_true, ↓reduceIte, false_implies,
      iff_true]
    exact setRetAndErrNoAccesses_within_iff.mpr setRet
  have pagesNr : ActionDma.pagesNr.read.Within limit ↔ 88 ≤ limit := by
    simp [Field.read_within_iff, ActionDma.pagesNr, dataField, FaultData.data]
  simp only [doDmaAccesses, announced, ne_eq, not_true_eq_false, ↓reduceIte, List.forall_mem_cons,
    pagesNr, true_implies]
  constructor
  · exact fun accesses => accesses.1
  · intro fits
    refine ⟨fits, ?_⟩
    split
    · simp
    · split
      · simp only [List.forall_mem_append, List.forall_mem_cons, Field.read_within_iff,
          setRetAndErrNoAccesses_within_iff]
        simp [ActionDma.phyAddr, ActionDma.doWrite, ActionDma.userBuf, ActionDma.doAperture,
          ActionDma.len, ActionCommon.fd, dataField, FaultData.data]
        omega
      · exact setRetAndErrNoAccesses_within_iff.mpr setRet

theorem handleUnmapAccesses_within_iff :
    (∀ access ∈ handleUnmapAccesses outcome manager page, access.Within limit) ↔
      FaultCase.unmap.Fits limit outcome manager page := by
  have pfnSize : ActionUnmap.pfnSize.read.Within limit ↔ 72 ≤ limit := by
    simp [Field.read_within_iff, ActionUnmap.pfnSize, dataField, FaultData.data]
  have fd : ActionCommon.fd.read.Within limit ↔ 36 ≤ limit := by
    simp [Field.read_within_iff, ActionCommon.fd, dataField, FaultData.data]
  simp only [FaultCase.Fits]
  cases allocated : outcome.malloc with
  | none => simp [handleUnmapAccesses, allocated, pfnSize]
  | some block =>
      simp only [handleUnmapAccesses, allocated, List.forall_mem_cons, List.forall_mem_append,
        pfnSize, fd, unmapPfns_within_iff, setRetAndErrNoAccesses_within_iff]
      by_cases header : 72 ≤ limit
      · rw [doDmaAccesses_within_iff (by omega)]
        simp
        omega
      · simp [header]

/-- The host lists as many numbers as there are, or as there is room for. -/
theorem emptyMappingsLoop_found (manager : Manager) (page : ByteMem) :
    (emptyMappingsLoop manager.ctx
      (min hostPfnMax (page.get ActionEmptyMappings.pfnMaxNrGuest))
      (manager.ctx.addrMapPfnMax.toNat -
        searchStart manager.ctx (page.get ActionEmptyMappings.lastPfn))
      (searchStart manager.ctx (page.get ActionEmptyMappings.lastPfn)) 0 page).2.1 =
        emptyMappingsNr manager page := by
  have start_lt := searchStart_lt manager.ctx page
  have pfnMax_lt := manager.ctx.addrMapPfnMax.toNat_lt
  simp only [emptyMappingsNr]
  generalize searchStart manager.ctx (page.get ActionEmptyMappings.lastPfn) = start at *
  generalize room : min hostPfnMax (page.get ActionEmptyMappings.pfnMaxNrGuest) = maxMappings
  generalize left : manager.ctx.addrMapPfnMax.toNat - start = count
  rcases emptyMappingsLoop_searched manager.ctx page (show start + count ≤ 2 ^ 64 by omega)
    (Nat.zero_le maxMappings) with ⟨passed, found, page', step, searched⟩
  rw [step]
  have passed_le := searched.passed_le
  have found_le := searched.found_le
  have found_eq := searched.found_eq
  have split := unmappedFrom_add manager.ctx start passed (count - passed)
  rw [Nat.add_sub_cancel' passed_le] at split
  have lengths := congrArg List.length split
  rw [List.length_append] at lengths
  by_cases early : passed < count
  · have full := searched.full early
    simp only
    omega
  · have ended : count - passed = 0 := by omega
    simp only [ended, unmappedFrom, List.range'_zero, List.filter_nil, List.length_nil] at lengths
    simp only [unmappedFrom] at found_eq ⊢
    omega

theorem handleEmptyMappingsAccesses_within_iff :
    (∀ access ∈ handleEmptyMappingsAccesses manager page, access.Within limit) ↔
      FaultCase.getEmptyMappings.Fits limit outcome manager page := by
  simp only [handleEmptyMappingsAccesses, FaultCase.Fits, emptyMappingsLoop_found,
    List.forall_mem_append, List.forall_mem_cons, emptyMappingsPfns_within_iff,
    setRetAndErrNoAccesses_within_iff, Field.read_within_iff, Field.written_within_iff]
  generalize emptyMappingsNr manager page = found
  simp [ActionEmptyMappings.pfnMaxNrGuest, ActionEmptyMappings.lastPfn, ActionEmptyMappings.pfnNr,
    dataField, FaultData.data]
  omega

theorem transferChunkAccesses_within_iff :
    (∀ access ∈ transferChunkAccesses manager page, access.Within limit) ↔
      40 ≤ limit ∧ (u64 (manager.transfer.chunk + chunkTransfer page) ≤ manager.transfer.size →
        40 + chunkTransfer page ≤ limit) := by
  have dataSize : ActionTransferEscapeData.chunkDataSize.read.Within limit ↔ 40 ≤ limit := by
    simp [Field.read_within_iff, ActionTransferEscapeData.chunkDataSize, dataField, FaultData.data]
  have status : ActionTransferEscapeData.status.written.Within limit ↔ 36 ≤ limit := by
    simp [Field.written_within_iff, ActionTransferEscapeData.status, dataField, FaultData.data]
  simp only [transferChunkAccesses, List.forall_mem_cons, dataSize]
  generalize chunkTransfer page = transfer
  by_cases overruns : manager.transfer.size < u64 (manager.transfer.chunk + transfer)
  · simp [overruns, not_le.mpr overruns]
  · simp only [overruns, ↓reduceIte, List.forall_mem_cons, status, Access.within_load_iff,
      ActionTransferEscapeData.chunkData, FaultData.data, not_lt.mp overruns, true_implies]
    simp
    omega

theorem doActionTransferEscapeDataAccesses_within_iff :
    (∀ access ∈ doActionTransferEscapeDataAccesses manager page, access.Within limit) ↔
      FaultCase.transferEscapeData.Fits limit outcome manager page := by
  have statusRead : ActionTransferEscapeData.status.read.Within limit ↔ 36 ≤ limit := by
    simp [Field.read_within_iff, ActionTransferEscapeData.status, dataField, FaultData.data]
  simp only [doActionTransferEscapeDataAccesses, FaultCase.Fits, List.forall_mem_cons, statusRead]
  generalize page.getInt ActionTransferEscapeData.status = status
  apply and_congr_right
  intro _
  by_cases handshake : status = TransferStatus.transferSize.code
  · have distinct : TransferStatus.transferSize.code ≠ TransferStatus.transferData.code := by decide
    simp only [handshake, ↓reduceIte, true_implies, distinct, false_implies, and_true,
      List.forall_mem_cons, Field.read_within_iff, Field.written_within_iff,
      ActionTransferEscapeData.chunkSize, ActionTransferEscapeData.totalSize,
      ActionTransferEscapeData.infoCtx, ActionTransferEscapeData.status, dataField, FaultData.data]
    simp
    omega
  · simp only [handshake, ↓reduceIte, false_implies, true_and]
    by_cases data : status = TransferStatus.transferData.code
    · simp only [data, ↓reduceIte, true_implies]
      exact transferChunkAccesses_within_iff
    · simp [data]

theorem FaultCase.within_iff (case : FaultCase) :
    (∀ access ∈ case.accesses outcome manager page, access.Within limit) ↔
      case.Fits limit outcome manager page := by
  cases case with
  | mmap => exact handleMmapAccesses_within_iff
  | unmap => exact handleUnmapAccesses_within_iff
  | getEmptyMappings => exact handleEmptyMappingsAccesses_within_iff
  | transferEscapeData => exact doActionTransferEscapeDataAccesses_within_iff

end Host

/-! ## The routines of the guest -/

section Guest

variable {σ : Type} {answer : σ → ByteMem → σ × ByteMem} {machine : Machine σ} {limit : ℕ}

/-- All accesses of a run lie within the limit. -/
def RunsWithin {α : Type} (answer : σ → ByteMem → σ × ByteMem) (limit : ℕ) (program : Prog α)
    (machine : Machine σ) : Prop :=
  program.Ensures answer (Access.Within limit) machine fun _ _ => True

theorem runsWithin_iff {α : Type} {program : Prog α} :
    RunsWithin answer limit program machine ↔
      ∀ access ∈ program.trace answer machine, access.Within limit := by
  simp [RunsWithin, Ensures]

theorem RunsWithin.bind {α β : Type} {program : Prog α} {next : α → Prog β}
    (first : RunsWithin answer limit program machine)
    (rest : ∀ value machine', program.run answer machine = (.done value, machine') →
      RunsWithin answer limit (next value) machine') :
    RunsWithin answer limit (program >>= next) machine :=
  (ensures_bind program next).mpr ⟨first.1, rest⟩

theorem runsWithin_pure {α : Type} (value : α) : RunsWithin answer limit (pure value) machine :=
  (ensures_pure value).mpr trivial

theorem runsWithin_storeBytes {offset : ℕ} {bytes : List UInt8}
    (fits : offset + bytes.length ≤ limit) :
    RunsWithin answer limit (storeBytes offset bytes) machine :=
  (ensures_storeBytes _ _).mpr ⟨Access.within_store_iff.mpr (Or.inr fits), trivial⟩

theorem RunsWithin.loadField {α : Type} {field : Field} {bound : ℕ} {next : ℕ → Prog α}
    (inBound : field.offset + field.width ≤ bound) (fits : bound ≤ limit)
    (rest : RunsWithin answer limit (next (machine.page.get field)) machine) :
    RunsWithin answer limit (Prog.loadField field >>= next) machine :=
  (ensures_bind _ _).mpr ((ensures_loadField _).mpr
    ⟨Access.within_load_iff.mpr (Or.inr (inBound.trans fits)), rest⟩)

theorem RunsWithin.loadInt {α : Type} {field : Field} {bound : ℕ} {next : ℤ → Prog α}
    (inBound : field.offset + field.width ≤ bound) (fits : bound ≤ limit)
    (rest : RunsWithin answer limit (next (machine.page.getInt field)) machine) :
    RunsWithin answer limit (Prog.loadInt field >>= next) machine :=
  (ensures_bind _ _).mpr ((ensures_loadInt _).mpr
    ⟨Access.within_load_iff.mpr (Or.inr (inBound.trans fits)), rest⟩)

theorem RunsWithin.storeField {α : Type} {field : Field} {value bound : ℕ} {next : Unit → Prog α}
    (inBound : field.offset + field.width ≤ bound) (fits : bound ≤ limit)
    (rest : RunsWithin answer limit (next ())
      { machine with page := machine.page.set field value }) :
    RunsWithin answer limit (Prog.storeField field value >>= next) machine :=
  (ensures_bind _ _).mpr ((ensures_storeField _ _).mpr
    ⟨Access.within_store_iff.mpr (Or.inr (inBound.trans fits)), rest⟩)

theorem RunsWithin.storeInt {α : Type} {field : Field} {value : ℤ} {bound : ℕ}
    {next : Unit → Prog α} (inBound : field.offset + field.width ≤ bound) (fits : bound ≤ limit)
    (rest : RunsWithin answer limit (next ())
      { machine with page := machine.page.setInt field value }) :
    RunsWithin answer limit (Prog.storeInt field value >>= next) machine :=
  (ensures_bind _ _).mpr ((ensures_storeInt _ _).mpr
    ⟨Access.within_store_iff.mpr (Or.inr (inBound.trans fits)), rest⟩)

theorem runsWithin_fhDoFaulthook (action : FhAction) (fits : 24 ≤ limit) :
    RunsWithin answer limit (fhDoFaulthook action) machine := by
  refine RunsWithin.bind (ensures_increment.mpr trivial) fun nonce _ _ => ?_
  refine RunsWithin.storeField (by decide) fits ?_
  refine RunsWithin.storeField (by decide) fits ?_
  refine RunsWithin.storeField (by decide) fits ?_
  refine RunsWithin.bind (ensures_doorbell.mpr ⟨trivial, trivial⟩) fun _ _ _ => ?_
  refine RunsWithin.loadField (by decide) fits ?_
  split
  · exact runsWithin_pure _
  · exact runsWithin_pure _

theorem runsWithin_escapeChecked {α : Type} (action : FhAction) (fail : ℤ → α) {success : Prog α}
    (fits : 48 ≤ limit) (rest : ∀ machine', RunsWithin answer limit success machine') :
    RunsWithin answer limit (escapeChecked action fail success) machine := by
  refine RunsWithin.bind (runsWithin_fhDoFaulthook action (by omega)) fun ret machine' _ => ?_
  split
  · exact runsWithin_pure _
  · refine RunsWithin.loadInt (by decide) fits ?_
    split
    · exact RunsWithin.loadInt (by decide) fits (runsWithin_pure _)
    · exact rest machine'

/-! ### The transfer of escape data -/

theorem runsWithin_transferEnd (ret : ℤ) (fits : 36 ≤ limit) :
    RunsWithin answer limit (transferEnd ret) machine := by
  refine RunsWithin.loadInt (by decide) fits ?_
  split
  · exact runsWithin_pure _
  · exact runsWithin_pure _

theorem runsWithin_sendChunk {data : List UInt8} {transfer : ℕ} (sizeRemain : ℕ)
    (fits : 40 + min transfer data.length ≤ limit) :
    RunsWithin answer limit (sendChunk data transfer sizeRemain) machine := by
  have stored : ActionTransferEscapeData.chunkData +
      ((data.drop (data.length - sizeRemain)).take transfer).length ≤ limit := by
    simp only [ActionTransferEscapeData.chunkData, FaultData.data, List.length_take,
      List.length_drop]
    omega
  refine RunsWithin.bind (runsWithin_storeBytes stored) fun _ _ _ => ?_
  refine RunsWithin.storeField (by decide) (show 40 ≤ limit by omega) ?_
  refine RunsWithin.storeInt (by decide) (show 40 ≤ limit by omega) ?_
  exact runsWithin_fhDoFaulthook _ (by omega)

theorem runsWithin_transferRounds {data : List UInt8} {transferSize : ℕ} (fuel sizeRemain : ℕ)
    (fits : 40 + min transferSize data.length ≤ limit) :
    RunsWithin answer limit (transferRounds data transferSize fuel sizeRemain) machine := by
  induction fuel generalizing sizeRemain machine with
  | zero => exact ensures_diverge
  | succ fuel ih =>
      refine RunsWithin.bind (runsWithin_sendChunk _ (by omega)) fun ret machine' _ => ?_
      split
      · exact runsWithin_transferEnd ret (by omega)
      · refine RunsWithin.loadInt (by decide) (show 40 ≤ limit by omega) ?_
        split
        · exact ih _
        · exact runsWithin_transferEnd ret (by omega)

theorem runsWithin_sendHandshake (size : ℕ) (infoCtx : Int32) (fits : 52 ≤ limit) :
    RunsWithin answer limit (sendHandshake size infoCtx) machine := by
  refine RunsWithin.storeInt (by decide) fits ?_
  refine RunsWithin.storeField (by decide) fits ?_
  refine RunsWithin.storeField (by decide) fits ?_
  refine RunsWithin.storeInt (by decide) fits ?_
  exact runsWithin_fhDoFaulthook _ (by omega)

/-- The host offers the room that it has, so the chunks fit into its page. -/
theorem runsWithin_transferChunkToHost {machine : Machine Host} (fuel : ℕ) {data : List UInt8}
    (infoCtx : Int32) (fits : 52 ≤ limit) (chunkFits : 40 + min transferMax data.length ≤ limit) :
    RunsWithin Host.onEscape limit (transferChunkToHost fuel data infoCtx) machine := by
  rw [transferChunkToHost]
  split
  · exact runsWithin_pure _
  refine RunsWithin.bind (runsWithin_sendHandshake _ _ fits) fun ret started handshake => ?_
  split
  · exact runsWithin_pure _
  rename_i accepted
  have offered : started.page.get ActionTransferEscapeData.chunkSize = transferMax := by
    by_cases unable : machine.peer.serving = false ∨ machine.peer.outcome.malloc = none
    · rcases run_sendHandshake_failed data infoCtx unable with ⟨final, failed⟩
      rw [failed] at handshake
      cases handshake
      exact absurd (show -Errno.ENXIO.code ≠ 0 by decide) accepted
    · rcases not_or.mp unable with ⟨running, allocated⟩
      rcases Option.ne_none_iff_exists'.mp allocated with ⟨block, block_eq⟩
      rcases run_sendHandshake_started data infoCtx (by simpa using running) block_eq with
        ⟨final, ran, -, chunkSize⟩
      rw [ran] at handshake
      cases handshake
      exact chunkSize
  refine RunsWithin.loadField (by decide) fits ?_
  rw [offered]
  exact runsWithin_transferRounds fuel _ chunkFits

/-! ### The mapping of a device -/

theorem pfnSize_after_store (page : ByteMem) (index value : ℕ) :
    (page.set (ActionMmapDevice.pfn index) value).get ActionMmapDevice.pfnSize =
      page.get ActionMmapDevice.pfnSize := by
  apply ByteMem.get_set_of_disjoint
  right
  simp only [ActionMmapDevice.pfn, ActionMmapDevice.pfnSize, dataField]
  omega

theorem runsWithin_mmapPfnLoop {pfnStart : ℕ} (fuel index : ℕ) (header : 104 ≤ limit)
    (fits : 104 + 8 * machine.page.get ActionMmapDevice.pfnSize ≤ limit) :
    RunsWithin answer limit (mmapPfnLoop pfnStart fuel index) machine := by
  induction fuel generalizing index machine with
  | zero => exact ensures_diverge
  | succ fuel ih =>
      refine RunsWithin.loadField (by decide) header ?_
      split
      · rename_i index_lt
        have stored : (ActionMmapDevice.pfn index).offset + (ActionMmapDevice.pfn index).width ≤
            104 + 8 * machine.page.get ActionMmapDevice.pfnSize := by
          simp only [ActionMmapDevice.pfn, dataField, FaultData.data]
          omega
        refine RunsWithin.storeField stored fits ?_
        apply ih
        rw [pfnSize_after_store]
        exact fits
      · exact runsWithin_pure _

/-- The loop stores the last number of the list, given enough turns. -/
theorem fits_of_runsWithin_mmapPfnLoop {pfnStart fuel index : ℕ}
    (within : RunsWithin answer limit (mmapPfnLoop pfnStart fuel index) machine)
    (enough : machine.page.get ActionMmapDevice.pfnSize < fuel + index)
    (more : index < machine.page.get ActionMmapDevice.pfnSize) :
    104 + 8 * machine.page.get ActionMmapDevice.pfnSize ≤ limit := by
  induction fuel generalizing index machine with
  | zero => omega
  | succ fuel ih =>
      rw [mmapPfnLoop] at within
      have looped := within.next (run_loadField _ _ _)
      rw [if_pos more, ensures_bind, ensures_storeField] at looped
      rcases looped with ⟨stored, rest⟩
      by_cases last : index + 1 < machine.page.get ActionMmapDevice.pfnSize
      · have later := ih rest (by rw [pfnSize_after_store]; omega)
          (by rw [pfnSize_after_store]; exact last)
        rwa [pfnSize_after_store] at later
      · rw [Access.within_store_iff] at stored
        simp only [ActionMmapDevice.pfn, dataField, FaultData.data] at stored
        omega

theorem mmapPage_pfnSize (args : MmapArgs) (page : ByteMem) :
    (mmapPage args page).get ActionMmapDevice.pfnSize = args.size.toNat / pageSize := by
  have size_lt : args.size.toNat < 2 ^ 64 := by
    have bmod_lt := @Int.bmod_lt ((args.vmEnd.toNat : ℤ) - args.vmStart.toNat) (2 ^ 64) (by decide)
    simp only [MmapArgs.size]
    omega
  rw [mmapPage, ByteMem.get_set_same]
  exact Nat.mod_eq_of_lt (lt_of_le_of_lt (Nat.div_le_self _ _) size_lt)

/-- The part of `fh_bridge_mmap` that works on the page. -/
def mmapRequest (fuel : ℕ) (args : MmapArgs) (pfnStart : UInt64) : Prog ℤ := do
  mmapPfnLoop pfnStart.toNat fuel 0
  escapeChecked .mmap id (pure (if args.remapRet ≠ 0 then args.remapRet else 0))

/-- The header is written by the first store, and the loop finds the number of pages in it. -/
theorem runsWithin_fhBridgeMmap_iff {args : MmapArgs} {fuel : ℕ} {pfnStart : UInt64}
    (infoAlloc : args.infoAlloc = true) (size_pos : 0 < args.size)
    (allocated : args.pfnStart = some pfnStart) :
    RunsWithin answer limit (fhBridgeMmap fuel args) machine ↔
      104 ≤ limit ∧ RunsWithin answer limit (mmapRequest fuel args pfnStart)
        { machine with page := mmapPage args machine.page } := by
  have notMissing : ¬(!args.infoAlloc) = true := by simp [infoAlloc]
  rw [fhBridgeMmap, if_neg notMissing, if_neg (not_le.mpr size_pos), allocated]
  simp only [RunsWithin, ensures_bind, ensures_storeBytes, ensures_storeInt, ensures_storeField,
    Machine.storing, Access.within_store_iff, mmapRequest, mmapPage, List.length_replicate]
  constructor
  · rintro ⟨cleared, -, -, -, -, -, -, -, rest⟩
    refine ⟨?_, rest⟩
    simp only [FaultData.data, ActionMmapDevice.size] at cleared
    omega
  · rintro ⟨header, rest⟩
    have inHeader : ∀ field : Field, field.offset + field.width ≤ 104 →
        field.width = 0 ∨ field.offset + field.width ≤ limit := fun field inBound =>
      Or.inr (inBound.trans header)
    exact ⟨Or.inr header, inHeader _ (by decide), inHeader _ (by decide), inHeader _ (by decide),
      inHeader _ (by decide), inHeader _ (by decide), inHeader _ (by decide),
      inHeader _ (by decide), rest⟩

theorem fhBridgeMmap_within_iff (args : MmapArgs) :
    (∀ fuel, RunsWithin answer limit (fhBridgeMmap fuel args) machine) ↔
      (args.Escapes → 104 + 8 * (args.size.toNat / pageSize) ≤ limit) := by
  constructor
  · intro within escapes
    rcases Option.ne_none_iff_exists'.mp escapes.allocated with ⟨pfnStart, allocated⟩
    rcases (runsWithin_fhBridgeMmap_iff escapes.infoAlloc escapes.size_pos allocated).mp
      (within (args.size.toNat / pageSize + 1)) with ⟨header, request⟩
    rw [RunsWithin, mmapRequest, ensures_bind] at request
    by_cases empty : args.size.toNat / pageSize = 0
    · omega
    · have looped : RunsWithin answer limit
          (mmapPfnLoop pfnStart.toNat (args.size.toNat / pageSize + 1) 0)
          { machine with page := mmapPage args machine.page } :=
        request.imp fun _ _ _ => trivial
      have fits := fits_of_runsWithin_mmapPfnLoop looped
        (by rw [mmapPage_pfnSize]; exact Nat.lt_succ_self _)
        (by rw [mmapPage_pfnSize]; exact Nat.pos_of_ne_zero empty)
      rwa [mmapPage_pfnSize] at fits
  · intro fits fuel
    by_cases escapes : args.Escapes
    · have room := fits escapes
      rcases Option.ne_none_iff_exists'.mp escapes.allocated with ⟨pfnStart, allocated⟩
      rw [runsWithin_fhBridgeMmap_iff escapes.infoAlloc escapes.size_pos allocated]
      have header : 104 ≤ limit := le_trans (Nat.le_add_right _ _) room
      refine ⟨header, ?_⟩
      refine RunsWithin.bind (runsWithin_mmapPfnLoop fuel 0 header ?_) fun _ machine' _ => ?_
      · rw [mmapPage_pfnSize]
        exact room
      · exact runsWithin_escapeChecked _ _ (by omega) fun _ => runsWithin_pure _
    · rcases fhBridgeMmap_of_not_escapes escapes with ⟨ret, returns⟩
      rw [returns]
      exact runsWithin_pure ret

/-! ### The search for pages without a mapping -/

theorem runsWithin_fixupLoop (kernel : PageKernel) (fuel index : ℕ) (fixup : MappingFixup)
    (fits : 68 + 8 * machine.page.get ActionEmptyMappings.pfnNr ≤ limit) :
    RunsWithin answer limit (fixupLoop kernel fuel index fixup) machine := by
  induction fuel generalizing index fixup with
  | zero => exact ensures_diverge
  | succ fuel ih =>
      refine RunsWithin.loadField (by decide) (show 68 ≤ limit by omega) ?_
      split
      · have listed : (ActionEmptyMappings.pfn index).offset +
            (ActionEmptyMappings.pfn index).width ≤
              68 + 8 * machine.page.get ActionEmptyMappings.pfnNr := by
          simp only [ActionEmptyMappings.pfn, dataField, FaultData.data]
          omega
        exact RunsWithin.loadField listed fits (ih _ _)
      · exact runsWithin_pure _

/-- The fix-up loop only reads the page. -/
theorem fixupLoop_unchanged {kernel : PageKernel} {fuel index : ℕ} {fixup fixup' : MappingFixup}
    {machine' : Machine σ}
    (looped : (fixupLoop kernel fuel index fixup).run answer machine = (.done fixup', machine')) :
    machine' = machine := by
  induction fuel generalizing index fixup with
  | zero => cases looped
  | succ fuel ih =>
      rw [fixupLoop, run_bind_of_done _ (run_loadField _ _ machine)] at looped
      split at looped
      · rw [run_bind_of_done _ (run_loadField _ _ machine)] at looped
        exact ih looped
      · cases looped
        rfl

end Guest

/-- The numbers of one reply have room on the guest's side and on the host's. -/
theorem handleEmptyMappings_bounded (manager : Manager) (page : ByteMem) :
    ∃ page', handleEmptyMappings manager page = (0, manager, page') ∧
      page'.getInt ActionCommon.ret = 0 ∧
      page'.get ActionEmptyMappings.pfnNr ≤
        min hostPfnMax (page.get ActionEmptyMappings.pfnMaxNrGuest) ∧
      page'.get ActionEmptyMappings.pfnMaxNrGuest =
        page.get ActionEmptyMappings.pfnMaxNrGuest := by
  have hostMax_lt : hostPfnMax < 2 ^ 64 := by decide
  rcases handleEmptyMappings_searched manager page with ⟨passed, found, page', step, searched⟩
  refine ⟨_, step, emptyMappingsReply_ret _ _ _, ?_, ?_⟩
  · rw [emptyMappingsReply_pfnNr _ _ (lt_of_le_of_lt (searched.found_le.trans (min_le_left _ _))
      hostMax_lt)]
    exact searched.found_le
  · rw [emptyMappingsReply_pfnMaxNrGuest]
    exact searched.get_pfnMaxNrGuest

section Verify

variable {machine : Machine Host} {limit : ℕ}

/-- What the escape of a round leaves on the page. -/
structure Enumerated (machine machine' : Machine Host) : Prop where
  serving : machine'.peer.serving = true
  ret : machine'.page.getInt ActionCommon.ret = 0
  pfnNr_le : machine'.page.get ActionEmptyMappings.pfnNr ≤
    min hostPfnMax (machine.page.get ActionEmptyMappings.pfnMaxNrGuest)
  guestMax : machine'.page.get ActionEmptyMappings.pfnMaxNrGuest =
    machine.page.get ActionEmptyMappings.pfnMaxNrGuest

theorem run_fhDoFaulthook_enumerated (serving : machine.peer.serving = true) :
    ∃ machine', (fhDoFaulthook .getEmptyMappings).run Host.onEscape machine =
      (.done 0, machine') ∧ Enumerated machine machine' := by
  have guestMax : (escapePage .getEmptyMappings (machine.counter + 1) machine.page).get
      ActionEmptyMappings.pfnMaxNrGuest = machine.page.get ActionEmptyMappings.pfnMaxNrGuest :=
    get_escapePage (by decide)
  rcases handleEmptyMappings_bounded machine.peer.manager
    (escapePage .getEmptyMappings (machine.counter + 1) machine.page) with
    ⟨page', step, ret, pfnNr_le, kept⟩
  have handled : handleAction machine.peer.outcome machine.peer.manager
      (escapePage .getEmptyMappings (machine.counter + 1) machine.page) =
        some (0, machine.peer.manager, page') := by
    simp only [handleAction, escapePage_action, FhAction.ofCode_code, step]
  refine ⟨_, run_fhDoFaulthook_of_handled serving handled (le_refl 0), serving, ?_, ?_, ?_⟩
  · rw [ByteMem.getInt_set_of_disjoint (by decide)]
    exact ret
  · rw [ByteMem.get_set_of_disjoint (by decide), ← guestMax]
    exact pfnNr_le
  · rw [ByteMem.get_set_of_disjoint (by decide), kept, guestMax]

theorem runsWithin_verifyRounds (kernel : PageKernel) (fuel rounds : ℕ) (fixup : MappingFixup)
    (header : 48 ≤ limit)
    (fits : machine.peer.serving = true →
      68 + 8 * min hostPfnMax (machine.page.get ActionEmptyMappings.pfnMaxNrGuest) ≤ limit) :
    RunsWithin Host.onEscape limit (verifyRounds kernel fuel rounds fixup) machine := by
  induction rounds generalizing machine fixup with
  | zero => exact ensures_diverge
  | succ rounds ih =>
      refine RunsWithin.bind (runsWithin_fhDoFaulthook _ (by omega)) fun ret replied escaped => ?_
      by_cases serving : machine.peer.serving = true
      · have room := fits serving
        rcases run_fhDoFaulthook_enumerated serving with ⟨machine', ran, enumerated⟩
        rw [ran] at escaped
        cases escaped
        have pfnNr_le := enumerated.pfnNr_le
        rw [if_neg (by decide)]
        refine RunsWithin.loadInt (by decide) header ?_
        split
        · exact runsWithin_pure _
        · refine RunsWithin.bind (runsWithin_fixupLoop kernel fuel 0 fixup (by omega))
              fun fixup' fixed looped => ?_
          rw [fixupLoop_unchanged looped]
          refine RunsWithin.loadField (by decide) (show 68 ≤ limit by omega) ?_
          split
          · apply ih
            intro _
            rw [enumerated.guestMax]
            exact room
          · exact runsWithin_pure _
      · rw [run_fhDoFaulthook_of_notCompleted (Or.inl (by simpa using serving))] at escaped
        cases escaped
        rw [if_pos (by decide)]
        exact runsWithin_pure _

theorem guestRoom_le {escapeSize : ℕ} (header : 68 ≤ escapeSize) :
    68 + 8 * min hostPfnMax (pfnMaxNrGuest escapeSize) ≤ escapeLimit escapeSize := by
  have hostRoom : 68 + 8 * hostPfnMax ≤ escapePageSize := by decide
  have wrapped : u64 (escapeSize + 2 ^ 64 - FaultData.data - ActionEmptyMappings.size) ≤
      escapeSize - 68 := by
    simp only [u64, FaultData.data, ActionEmptyMappings.size]
    omega
  have guestRoom : 8 * pfnMaxNrGuest escapeSize ≤ escapeSize - 68 := by
    simp only [pfnMaxNrGuest]
    omega
  simp only [escapeLimit]
  omega

theorem le_escapeLimit_iff {bound escapeSize : ℕ} (small : bound ≤ 4096) :
    bound ≤ escapeLimit escapeSize ↔ bound ≤ escapeSize := by
  have pageSize_le : 4096 ≤ escapePageSize := by decide
  simp only [escapeLimit]
  omega

theorem runsWithin_fhVerifyMapping_iff {kernel : PageKernel} {fuel escapeSize : ℕ}
    (free : machine.locked = false) :
    RunsWithin Host.onEscape limit (fhVerifyMapping fuel kernel escapeSize) machine ↔
      60 ≤ limit ∧ RunsWithin Host.onEscape limit (verifyRounds kernel fuel fuel .empty)
        (askingEmptyMappings escapeSize machine) := by
  have cursor : (Access.store ActionEmptyMappings.lastPfn.offset
      ActionEmptyMappings.lastPfn.width).Within limit ↔ 52 ≤ limit := by
    rw [Access.within_store_iff]
    simp [ActionEmptyMappings.lastPfn, dataField, FaultData.data]
  have guestMax : (Access.store ActionEmptyMappings.pfnMaxNrGuest.offset
      ActionEmptyMappings.pfnMaxNrGuest.width).Within limit ↔ 60 ≤ limit := by
    rw [Access.within_store_iff]
    simp [ActionEmptyMappings.pfnMaxNrGuest, dataField, FaultData.data]
  simp only [RunsWithin, fhVerifyMapping, ensures_bind, ensures_acquire, ensures_storeField,
    ensures_release, ensures_pure, cursor, guestMax, free, true_implies, askingEmptyMappings]
  constructor
  · rintro ⟨-, -, room, rounds⟩
    exact ⟨room, rounds.imp fun _ _ _ => trivial⟩
  · rintro ⟨room, rounds⟩
    exact ⟨trivial, by omega, room, rounds.imp fun _ _ _ => ⟨trivial, trivial⟩⟩

/-- A reply of the host makes the guest read the number of entries. -/
theorem fits_of_runsWithin_verifyRounds {kernel : PageKernel} {fuel rounds : ℕ}
    {fixup : MappingFixup} (serving : machine.peer.serving = true)
    (within : RunsWithin Host.onEscape limit
      (verifyRounds kernel (fuel + 1) (rounds + 1) fixup) machine) : 68 ≤ limit := by
  rcases run_fhDoFaulthook_enumerated serving with ⟨machine', ran, enumerated⟩
  rw [verifyRounds] at within
  have escaped := within.next ran
  rw [if_neg (by decide)] at escaped
  have replied := escaped.next (run_loadInt _ _ _)
  rw [enumerated.ret, if_neg (by decide), ensures_bind, fixupLoop, ensures_bind,
    ensures_loadField, Access.within_load_iff] at replied
  have read := replied.1
  simp only [ActionEmptyMappings.pfnNr, dataField, FaultData.data] at read
  omega

theorem fhVerifyMapping_within_iff (kernel : PageKernel) (escapeSize : ℕ) :
    (∀ fuel, RunsWithin Host.onEscape (escapeLimit escapeSize)
        (fhVerifyMapping fuel kernel escapeSize) machine) ↔
      (machine.locked = false →
        60 ≤ escapeSize ∧ (machine.peer.serving = true → 68 ≤ escapeSize)) := by
  constructor
  · intro within free
    rcases (runsWithin_fhVerifyMapping_iff free).mp (within 1) with ⟨room, rounds⟩
    refine ⟨(le_escapeLimit_iff (by decide)).mp room, ?_⟩
    intro serving
    exact (le_escapeLimit_iff (by decide)).mp
      (@fits_of_runsWithin_verifyRounds (askingEmptyMappings escapeSize machine) _ kernel 0 0
        .empty serving rounds)
  · intro fits fuel
    by_cases free : machine.locked = false
    · rcases fits free with ⟨asked, replied⟩
      have room : 60 ≤ escapeLimit escapeSize := (le_escapeLimit_iff (by decide)).mpr asked
      rw [runsWithin_fhVerifyMapping_iff free]
      refine ⟨room, runsWithin_verifyRounds kernel fuel fuel _ (by omega) ?_⟩
      intro serving
      rw [askingEmptyMappings_pfnMaxNrGuest]
      exact guestRoom_le (replied serving)
    · have locked : machine.locked = true := by simpa using free
      simp [RunsWithin, fhVerifyMapping, ensures_bind, locked, Access.Within]

end Verify

/-! ## Every use of the page -/

/-- The call of `transfer_chunk_to_host` that `char_sgdma_read_write` makes, behind its checks. -/
def sgdmaTransfer (fuel : ℕ) (args : SgdmaArgs) (escapeSize : ℕ) : Prog ℤ :=
  match fhPinPages args.kernel args.buf.toNat args.count.toNat with
  | .error failure => pure failure
  | .ok pinned =>
      if escapeSize < ActionDma.size + pinned.pagesNr * PageChunk.size then
        pure (-Errno.ENOMEM.code)
      else
        transferChunkToHost fuel (chunkBytes pinned.pageChunks) (Int32.ofInt FhAction.dma.code)

/-- A use of the escape page: a routine of the guest against the host, or a request that the host
serves, of any contents. -/
inductive EscapeUse where
  | transfer (args : SgdmaArgs) (machine : Machine Host)
  | mmap (args : MmapArgs) (machine : Machine Host)
  | verifyMapping (kernel : PageKernel) (machine : Machine Host)
  | serve (case : FaultCase) (outcome : FaultOutcome) (manager : Manager) (page : ByteMem)

namespace EscapeUse

/-- The accesses of a use, with the loops of the guest unrolled `fuel` times. -/
def accesses (escapeSize fuel : ℕ) : EscapeUse → List Access
  | transfer args machine => (sgdmaTransfer fuel args escapeSize).trace Host.onEscape machine
  | mmap args machine => (fhBridgeMmap fuel args).trace Host.onEscape machine
  | verifyMapping kernel machine =>
      (fhVerifyMapping fuel kernel escapeSize).trace Host.onEscape machine
  | serve case outcome manager page => case.accesses outcome manager page

/-- The room that a use needs on the page. -/
def Fits (escapeSize : ℕ) : EscapeUse → Prop
  | transfer _ _ => True
  | mmap args _ => args.Escapes →
      104 + 8 * (args.size.toNat / pageSize) ≤ escapeLimit escapeSize
  | verifyMapping _ machine => machine.locked = false →
      60 ≤ escapeSize ∧ (machine.peer.serving = true → 68 ≤ escapeSize)
  | serve case outcome manager page => case.Fits (escapeLimit escapeSize) outcome manager page

end EscapeUse

theorem runsWithin_sgdmaTransfer (fuel : ℕ) (args : SgdmaArgs) (escapeSize : ℕ)
    (machine : Machine Host) :
    RunsWithin Host.onEscape (escapeLimit escapeSize) (sgdmaTransfer fuel args escapeSize)
      machine := by
  rw [sgdmaTransfer]
  split
  · exact runsWithin_pure _
  · rename_i pinned _
    split
    · exact runsWithin_pure _
    · rename_i checked
      have length : (chunkBytes pinned.pageChunks).length = PageChunk.size * pinned.pagesNr := by
        rw [length_chunkBytes, pinned.length_pageChunks]
      have hostRoom : 40 + transferMax ≤ escapePageSize := by decide
      have header : 52 ≤ escapePageSize := by decide
      simp only [ActionDma.size, PageChunk.size] at checked length
      apply runsWithin_transferChunkToHost
      · simp only [escapeLimit]
        omega
      · simp only [escapeLimit, length]
        omega

/--
The accesses of a use lie within the bytes of the page that both sides have
exactly when the use fits; only the transfer of escape data always does.
-/
theorem escapeUse_within_iff (escapeSize : ℕ) (use : EscapeUse) :
    (∀ fuel, ∀ access ∈ use.accesses escapeSize fuel, access.Within (escapeLimit escapeSize)) ↔
      use.Fits escapeSize := by
  cases use with
  | transfer args machine =>
      simp only [EscapeUse.accesses, EscapeUse.Fits, ← runsWithin_iff, iff_true]
      exact fun fuel => runsWithin_sgdmaTransfer fuel args escapeSize machine
  | mmap args machine =>
      simp only [EscapeUse.accesses, EscapeUse.Fits, ← runsWithin_iff]
      exact fhBridgeMmap_within_iff args
  | verifyMapping kernel machine =>
      simp only [EscapeUse.accesses, EscapeUse.Fits, ← runsWithin_iff]
      exact fhVerifyMapping_within_iff kernel escapeSize
  | serve case outcome manager page =>
      simp only [EscapeUse.accesses, EscapeUse.Fits]
      rw [← case.within_iff]
      exact ⟨fun within => within 0, fun within _ => within⟩

/-- A mapping of two megabytes. -/
def mmapLarge : MmapArgs where
  fd := 3
  vmStart := 0
  vmEnd := 0x200000
  vmPgoff := 0
  vmFlags := 0
  vmPageProt := 0
  infoAlloc := true
  pfnStart := some 0x88000
  remapRet := 0

/-- On a page of 4096 bytes, the list of the 512 page frame numbers runs over the end. -/
theorem mmap_overruns_page :
    ¬∀ escapeSize (use : EscapeUse) fuel, ∀ access ∈ use.accesses escapeSize fuel,
      access.Within (escapeLimit escapeSize) := by
  intro claim
  have within : ∀ fuel, RunsWithin Host.onEscape (escapeLimit 4096) (fhBridgeMmap fuel mmapLarge)
      Machine.cleared := by
    intro fuel
    rw [runsWithin_iff]
    exact claim 4096 (.mmap mmapLarge Machine.cleared) fuel
  have fits := (fhBridgeMmap_within_iff mmapLarge).mp within ⟨rfl, by decide, by decide⟩
  exact absurd fits (by decide)

end Acai
