import Acai.Lib.TwoRuns
import Acai.Manager.Listener

/-!
# The writes of a reply

A handler of `on_fault` works on the page in place, so the page that it leaves
mixes what it has written with what the page held before. This file separates the
two: `replyWrites` lists, for every request, the fields that the host writes, and
a handler leaves the page of the request with these writes on it
(`handleAction_page`). Bytes that no field of the list covers are what the guest
has left there.

Two pages that a handler answers with the same result, the same state of the
manager and the same writes are treated alike by the host (`Host.onEscape_alike`).
-/

namespace Acai

/-- A store of the host to a field of the page. -/
structure HostWrite where
  field : Field
  value : ℕ

def Field.writing (field : Field) (value : ℤ) : HostWrite :=
  ⟨field, (value % 256 ^ field.width).toNat⟩

def ByteMem.applying (page : ByteMem) (writes : List HostWrite) : ByteMem :=
  writes.foldl (fun page write => page.set write.field write.value) page

@[simp]
theorem ByteMem.applying_writing (page : ByteMem) (field : Field) (value : ℤ)
    (writes : List HostWrite) :
    page.applying (field.writing value :: writes) = (page.setInt field value).applying writes := rfl

theorem ByteMem.applying_cons (page : ByteMem) (write : HostWrite) (writes : List HostWrite) :
    page.applying (write :: writes) = (page.set write.field write.value).applying writes := rfl

@[simp]
theorem ByteMem.applying_nil (page : ByteMem) : page.applying [] = page := rfl

@[simp]
theorem ByteMem.applying_append (page : ByteMem) (first second : List HostWrite) :
    page.applying (first ++ second) = (page.applying first).applying second :=
  List.foldl_append

def writtenBytes (writes : List HostWrite) : Set ℕ :=
  {address | ∃ write ∈ writes, address ∈ write.field.bytes}

theorem writtenBytes_mono {writes writes' : List HostWrite} (more : writes ⊆ writes') :
    writtenBytes writes ⊆ writtenBytes writes' := by
  rintro address ⟨write, isWrite, inside⟩
  exact ⟨write, more isWrite, inside⟩

theorem ByteMem.eqOn_applying {left right : ByteMem} {known : Set ℕ}
    (agree : Set.EqOn left right known) (writes : List HostWrite) :
    Set.EqOn (left.applying writes) (right.applying writes) (known ∪ writtenBytes writes) := by
  induction writes generalizing left right known with
  | nil => exact agree.mono fun address inside => inside.elim id (by simp [writtenBytes])
  | cons write writes ih =>
      refine (ih (ByteMem.eqOn_set agree write.field write.value)).mono ?_
      rintro address (inside | ⟨earlier, isWrite, inside⟩)
      · exact Or.inl (Or.inl inside)
      · rcases List.mem_cons.mp isWrite with rfl | later
        · exact Or.inl (Or.inr inside)
        · exact Or.inr ⟨earlier, later, inside⟩

/-! ## The writes of each handler -/

def retWrites (ret errno : ℤ) : List HostWrite :=
  [ActionCommon.fd.writing ret, ActionCommon.ret.writing ret,
    ActionCommon.errNo.writing (if ret < 0 then errno else 0)]

/-- The numbers that the search for pages without a mapping has written, by entry. -/
def emptyMappingsWrites (ctx : CtxStruct) (maxMappings : ℕ) : ℕ → ℕ → ℕ → List HostWrite
  | 0, _, _ => []
  | count + 1, pfn, found =>
      if maxMappings ≤ found then []
      else if getAddrMapVaddrVerify ctx pfn = 0 then
        ⟨ActionEmptyMappings.pfn found, pfn⟩ ::
          emptyMappingsWrites ctx maxMappings count (pfn + 1) (found + 1)
      else emptyMappingsWrites ctx maxMappings count (pfn + 1) found

section

variable (outcome : FaultOutcome) (manager : Manager) (page : ByteMem)

def handleEmptyMappingsWrites : List HostWrite :=
  let hostMax := (getMappedEscapeBufferSize - FaultData.data - ActionEmptyMappings.size) / 8
  let maxMappings := min hostMax (page.get ActionEmptyMappings.pfnMaxNrGuest)
  let pfnMax := manager.ctx.addrMapPfnMax.toNat
  let lastPfn := page.get ActionEmptyMappings.lastPfn
  let start := if lastPfn = 0 then manager.ctx.addrMapPfnMin.toNat else lastPfn
  let (pfn, found, _) := emptyMappingsLoop manager.ctx maxMappings (pfnMax - start) start 0 page
  emptyMappingsWrites manager.ctx maxMappings (pfnMax - start) start 0 ++
    [⟨ActionEmptyMappings.lastPfn, if found = maxMappings ∧ pfn < pfnMax then pfn else 0⟩,
      ⟨ActionEmptyMappings.pfnNr, found⟩, ActionCommon.fd.writing 0, ActionCommon.ret.writing 0,
      ActionCommon.errNo.writing 0]

def doDmaWrites : List HostWrite :=
  match doDma outcome manager page with
  | none => []
  | some (ret, _, _) => retWrites ret outcome.errno.toInt

def handleMmapWrites : List HostWrite :=
  if outcome.malloc.isNone ∨ ¬MmapListed page then []
  else retWrites outcome.mmapRet.toInt outcome.errno.toInt

def handleUnmapWrites : List HostWrite :=
  if outcome.malloc.isNone ∨ ¬UnmapListed page then []
  else
    retWrites outcome.unmmapRet.toInt outcome.errno.toInt ++
      match handleUnmap outcome manager page with
      | none => []
      | some (ret, _, _) => retWrites ret outcome.errno.toInt

def doActionTransferEscapeDataWrites : List HostWrite :=
  let status := page.getInt ActionTransferEscapeData.status
  if status = TransferStatus.transferSize.code then
    [⟨ActionTransferEscapeData.chunkSize, transferMax⟩,
      ActionTransferEscapeData.status.writing
        (if outcome.malloc.isNone then TransferStatus.error else TransferStatus.ok).code]
  else if status = TransferStatus.transferData.code then
    if manager.transfer.size < u64 (manager.transfer.chunk + chunkTransfer page) then []
    else [ActionTransferEscapeData.status.writing TransferStatus.ok.code]
  else []

/-- The fields that `on_fault` writes for a request, in order. -/
def replyWrites : List HostWrite :=
  match FhAction.ofCode (page.get FaultData.action) with
  | some .ping => [ActionPing.ping.writing (page.getInt ActionPing.ping + 1)]
  | some .getEmptyMappings => handleEmptyMappingsWrites manager page
  | some .verifyMapping =>
      let vaddr := getAddrMapVaddrVerify manager.ctx (page.get ActionVerifyMapping.pfn)
      [⟨ActionVerifyMapping.status,
        (if vaddr ≠ 0 then VerifyStatus.success else VerifyStatus.fail).code⟩]
  | some .openDevice =>
      ActionCommon.fd.writing outcome.openRet.toInt ::
        retWrites outcome.openRet.toInt outcome.errno.toInt
  | some .closeDevice => retWrites outcome.closeRet.toInt outcome.errno.toInt
  | some .mmap => handleMmapWrites outcome page
  | some .unmap => handleUnmapWrites outcome manager page
  | some .dma => doDmaWrites outcome manager page
  | some .transferEscapeData => doActionTransferEscapeDataWrites outcome manager page
  | _ => []

end

section

variable {outcome : FaultOutcome} {manager manager' : Manager} {page page' : ByteMem} {ret : ℤ}

theorem emptyMappingsLoop_page (ctx : CtxStruct) (maxMappings count pfn found : ℕ)
    (page : ByteMem) :
    (emptyMappingsLoop ctx maxMappings count pfn found page).2.2 =
      page.applying (emptyMappingsWrites ctx maxMappings count pfn found) := by
  induction count generalizing pfn found page with
  | zero => rfl
  | succ count ih =>
      simp only [emptyMappingsLoop, emptyMappingsWrites]
      split
      · rfl
      · split
        · exact ih _ _ _
        · exact ih _ _ _

theorem handleEmptyMappings_page (manager : Manager) (page : ByteMem) :
    (handleEmptyMappings manager page).2.2 =
      page.applying (handleEmptyMappingsWrites manager page) := by
  simp only [handleEmptyMappings, handleEmptyMappingsWrites, ByteMem.applying_append,
    emptyMappingsLoop_page]
  generalize page.applying _ = searched
  simp only [setRetAndErrNoDirect, ByteMem.setInt, Field.writing, ByteMem.applying_cons,
    ByteMem.applying_nil]

theorem doDma_page (handled : doDma outcome manager page = some (ret, manager', page')) :
    page' = setRetAndErrNo page ret outcome.errno.toInt := by
  simp only [doDma] at handled
  split at handled
  · cases handled
    rfl
  · split at handled
    · cases handled
    · split at handled
      · cases handled
        rfl
      · cases handled
        rfl

theorem handleMmap_page
    (handled : handleMmap outcome manager page = some (ret, manager', page')) :
    page' = page.applying (handleMmapWrites outcome page) := by
  rw [handleMmapWrites]
  rcases handleMmap_cases handled with ⟨failed, step⟩ | ⟨allocated, listed, step⟩
  · cases step
    rw [if_pos (Or.inl (Option.isNone_iff_eq_none.mpr failed)), ByteMem.applying_nil]
  · cases step
    rw [if_neg (by simp [allocated, listed])]
    rfl

theorem handleUnmap_page
    (handled : handleUnmap outcome manager page = some (ret, manager', page')) :
    page' = page.applying (handleUnmapWrites outcome manager page) := by
  rw [handleUnmapWrites]
  rcases handleUnmap_cases handled with ⟨failed, step⟩ | ⟨allocated, listed, fellThrough⟩
  · cases step
    rw [if_pos (Or.inl (Option.isNone_iff_eq_none.mpr failed)), ByteMem.applying_nil]
  · rw [if_neg (by simp [allocated, listed]), handled, ByteMem.applying_append]
    exact doDma_page fellThrough

theorem doActionTransferEscapeData_page
    (handled : doActionTransferEscapeData outcome manager page = some (ret, manager', page')) :
    page' = page.applying (doActionTransferEscapeDataWrites outcome manager page) := by
  simp only [doActionTransferEscapeData] at handled
  simp only [doActionTransferEscapeDataWrites]
  split at handled
  · rename_i handshake
    rw [if_pos handshake]
    cases allocated : outcome.malloc with
    | none =>
        simp only [transferHandshake, allocated] at handled
        cases handled
        rfl
    | some block =>
        simp only [transferHandshake, allocated] at handled
        cases handled
        rfl
  · rename_i notHandshake
    rw [if_neg notHandshake]
    split at handled
    · rename_i isChunk
      rw [if_pos isChunk]
      simp only [transferChunk] at handled
      split at handled
      · rename_i overruns
        rw [if_pos overruns]
        cases handled
        rfl
      · rename_i fits
        rw [if_neg fits]
        split at handled
        · cases handled
          rfl
        · split at handled
          · cases handled
            rfl
          · cases handled
    · rename_i notChunk
      rw [if_neg notChunk]
      cases handled
      rfl

/-- A handler leaves the page of the request with the writes of its reply on it. -/
theorem handleAction_page
    (handled : handleAction outcome manager page = some (ret, manager', page')) :
    page' = page.applying (replyWrites outcome manager page) := by
  cases known : FhAction.ofCode (page.get FaultData.action) with
  | none =>
      simp only [handleAction, known, Option.some.injEq, Prod.mk.injEq] at handled
      simp only [replyWrites, known]
      exact handled.2.2.symm
  | some action =>
      simp only [handleAction, known] at handled
      simp only [replyWrites, known]
      cases action with
      | ping =>
          simp only [handlePing, Option.some.injEq, Prod.mk.injEq] at handled
          rw [ByteMem.applying_writing, ByteMem.applying_nil]
          exact handled.2.2.symm
      | getEmptyMappings =>
          have result := congrArg (fun handled : Handled => handled.2.2) (Option.some.inj handled)
          exact result.symm.trans (handleEmptyMappings_page manager page)
      | verifyMapping =>
          cases handled
          rfl
      | openDevice =>
          cases handled
          rfl
      | closeDevice =>
          cases handled
          rfl
      | mmap => exact handleMmap_page handled
      | unmap => exact handleUnmap_page handled
      | dma =>
          simp only at handled
          simp only [doDmaWrites, handled]
          exact doDma_page handled
      | transferEscapeData => exact doActionTransferEscapeData_page handled
      | noaction | undef | guestContinue | allocGuest | read | write | ioctlDma | setup
      | teardown | seek =>
          cases handled
          rfl

end

/-! ## Hosts that cannot be told apart -/

/-- What a handler makes of a request, apart from the rest of its page. -/
def replyOf (outcome : FaultOutcome) (manager : Manager) (page : ByteMem) :
    Option (ℤ × Manager × List HostWrite) :=
  (handleAction outcome manager page).map fun handled =>
    (handled.1, handled.2.1, replyWrites outcome manager page)

theorem handleAction_of_replyOf {outcome : FaultOutcome} {manager manager' : Manager}
    {page : ByteMem} {ret : ℤ} {writes : List HostWrite}
    (reply : replyOf outcome manager page = some (ret, manager', writes)) :
    handleAction outcome manager page = some (ret, manager', page.applying writes) := by
  rcases Option.map_eq_some_iff.mp reply with ⟨⟨ret', manager'', page'⟩, handled, result⟩
  simp only [Prod.mk.injEq] at result
  rcases result with ⟨rfl, rfl, rfl⟩
  rw [handled, handleAction_page handled]

theorem replyWrites_of_replyOf {outcome : FaultOutcome} {manager manager' : Manager}
    {page : ByteMem} {ret : ℤ} {writes : List HostWrite}
    (reply : replyOf outcome manager page = some (ret, manager', writes)) :
    replyWrites outcome manager page = writes := by
  rcases Option.map_eq_some_iff.mp reply with ⟨handled, -, result⟩
  simp only [Prod.mk.injEq] at result
  exact result.2.2

theorem replyOf_eq_none {outcome : FaultOutcome} {manager : Manager} {page : ByteMem} :
    replyOf outcome manager page = none ↔ handleAction outcome manager page = none := by
  rw [replyOf, Option.map_eq_none_iff]

/-! ### The replies to the requests -/

/-- The result and the manager that a handler leaves. -/
def resultOf (handled : Handled) : ℤ × Manager := (handled.1, handled.2.1)

section Replies

variable (outcome : FaultOutcome) (manager : Manager) {page page' : ByteMem}

theorem replyOf_openDevice (action : page.get FaultData.action = FhAction.openDevice.code) :
    replyOf outcome manager page =
      some (0,
        manager.addCall (.openDevice (devicePath page) (page.get ActionOpenclose.flags)
          outcome.openRet.toInt),
        ActionCommon.fd.writing outcome.openRet.toInt ::
          retWrites outcome.openRet.toInt outcome.errno.toInt) := by
  unfold replyOf handleAction replyWrites
  simp only [action, FhAction.ofCode_code]
  rfl

theorem replyOf_closeDevice (action : page.get FaultData.action = FhAction.closeDevice.code) :
    replyOf outcome manager page =
      some (0, manager.addCall (.closeDevice (page.getInt ActionCommon.fd) outcome.closeRet.toInt),
        retWrites outcome.closeRet.toInt outcome.errno.toInt) := by
  unfold replyOf handleAction replyWrites
  simp only [action, FhAction.ofCode_code]
  rfl

/-- The host has no handler for the requests to read and to write a control register. -/
theorem replyOf_ctrl (action : page.get FaultData.action = FhAction.read.code ∨
    page.get FaultData.action = FhAction.write.code) :
    replyOf outcome manager page = some (0, manager, []) := by
  rcases action with action | action
  · unfold replyOf handleAction replyWrites
    simp only [action, FhAction.ofCode_code]
    rfl
  · unfold replyOf handleAction replyWrites
    simp only [action, FhAction.ofCode_code]
    rfl

theorem replyOf_dma (action : page.get FaultData.action = FhAction.dma.code) :
    replyOf outcome manager page =
      ((doDma outcome manager page).map resultOf).map fun result =>
        (result.1, result.2, retWrites result.1 outcome.errno.toInt) := by
  unfold replyOf handleAction replyWrites
  simp only [action, FhAction.ofCode_code, doDmaWrites]
  cases doDma outcome manager page with
  | none => rfl
  | some handled => rfl

theorem replyOf_mmap (action : page.get FaultData.action = FhAction.mmap.code) :
    replyOf outcome manager page =
      ((handleMmap outcome manager page).map resultOf).map fun result =>
        (result.1, result.2, handleMmapWrites outcome page) := by
  unfold replyOf handleAction replyWrites
  simp only [action, FhAction.ofCode_code, Option.map_map]
  rfl

theorem replyOf_unmap (action : page.get FaultData.action = FhAction.unmap.code) :
    replyOf outcome manager page =
      ((handleUnmap outcome manager page).map resultOf).map fun result =>
        (result.1, result.2,
          if outcome.malloc.isNone ∨ ¬UnmapListed page then []
          else retWrites outcome.unmmapRet.toInt outcome.errno.toInt ++
            retWrites result.1 outcome.errno.toInt) := by
  unfold replyOf handleAction replyWrites
  simp only [action, FhAction.ofCode_code, handleUnmapWrites]
  cases handleUnmap outcome manager page with
  | none => rfl
  | some handled => rfl

theorem replyOf_getEmptyMappings
    (action : page.get FaultData.action = FhAction.getEmptyMappings.code) :
    replyOf outcome manager page =
      some (0, manager, handleEmptyMappingsWrites manager page) := by
  unfold replyOf handleAction replyWrites
  simp only [action, FhAction.ofCode_code, Option.map_some,
    handleEmptyMappings]

theorem replyOf_handshake
    (action : page.get FaultData.action = FhAction.transferEscapeData.code)
    (status : page.getInt ActionTransferEscapeData.status = TransferStatus.transferSize.code) :
    replyOf outcome manager page =
      some ((resultOf (transferHandshake outcome manager page)).1,
        (resultOf (transferHandshake outcome manager page)).2,
        [⟨ActionTransferEscapeData.chunkSize, transferMax⟩,
          ActionTransferEscapeData.status.writing
            (if outcome.malloc.isNone then TransferStatus.error else TransferStatus.ok).code]) := by
  unfold replyOf handleAction replyWrites
  simp only [action, FhAction.ofCode_code,
    doActionTransferEscapeData, doActionTransferEscapeDataWrites, if_pos status, Option.map_some,
    resultOf]

theorem replyOf_chunk (action : page.get FaultData.action = FhAction.transferEscapeData.code)
    (status : page.getInt ActionTransferEscapeData.status = TransferStatus.transferData.code) :
    replyOf outcome manager page =
      ((transferChunk manager page).map resultOf).map fun result =>
        (result.1, result.2,
          if manager.transfer.size < u64 (manager.transfer.chunk + chunkTransfer page) then []
          else [ActionTransferEscapeData.status.writing TransferStatus.ok.code]) := by
  have notHandshake : TransferStatus.transferData.code ≠ TransferStatus.transferSize.code := by
    decide
  unfold replyOf handleAction replyWrites
  simp only [action, FhAction.ofCode_code,
    doActionTransferEscapeData, doActionTransferEscapeDataWrites, status, if_neg notHandshake,
    ↓reduceIte, Option.map_map]
  rfl

/-- A transfer request of any other kind does nothing. -/
theorem replyOf_transferIdle
    (action : page.get FaultData.action = FhAction.transferEscapeData.code)
    (notHandshake : page.getInt ActionTransferEscapeData.status ≠ TransferStatus.transferSize.code)
    (notChunk : page.getInt ActionTransferEscapeData.status ≠ TransferStatus.transferData.code) :
    replyOf outcome manager page = some (0, manager, []) := by
  unfold replyOf handleAction replyWrites
  simp only [action, FhAction.ofCode_code,
    doActionTransferEscapeData, doActionTransferEscapeDataWrites, if_neg notHandshake,
    if_neg notChunk, Option.map_some]

theorem doDma_congr {known : Set ℕ} (agree : Set.EqOn page page' known)
    (fd : ActionCommon.fd.bytes ⊆ known)
    (request : Set.Ico (FaultData.data + 16) (FaultData.data + ActionDma.size) ⊆ known) :
    (doDma outcome manager page).map resultOf = (doDma outcome manager page').map resultOf := by
  have field : ∀ field : Field, FaultData.data + 16 ≤ field.offset →
      field.offset + field.width ≤ FaultData.data + ActionDma.size →
        page.get field = page'.get field := by
    intro field lower upper
    apply ByteMem.get_eq_of_eqOn agree
    exact (Set.Ico_subset_Ico lower upper).trans request
  have pagesNr := field ActionDma.pagesNr (by decide) (by decide)
  have phyAddr := field ActionDma.phyAddr (by decide) (by decide)
  have doWrite := field ActionDma.doWrite (by decide) (by decide)
  have doAperture := field ActionDma.doAperture (by decide) (by decide)
  have userBuf := field ActionDma.userBuf (by decide) (by decide)
  have len := field ActionDma.len (by decide) (by decide)
  have file := ByteMem.get_eq_of_eqOn agree fd
  simp only [doDma, dmaClean, dmaRequest, ByteMem.getInt, pagesNr, phyAddr, doWrite, doAperture,
    userBuf, len, file]
  split
  · rfl
  · split
    · rfl
    · split
      · rfl
      · rfl

theorem transferHandshake_congr {known : Set ℕ} (agree : Set.EqOn page page' known)
    (totalSize : ActionTransferEscapeData.totalSize.bytes ⊆ known)
    (infoCtx : ActionTransferEscapeData.infoCtx.bytes ⊆ known) :
    resultOf (transferHandshake outcome manager page) =
      resultOf (transferHandshake outcome manager page') := by
  have offered := (ByteMem.eqOn_set agree ActionTransferEscapeData.chunkSize transferMax).mono
    Set.subset_union_left
  have size := ByteMem.get_eq_of_eqOn offered totalSize
  have context := ByteMem.get_eq_of_eqOn offered infoCtx
  simp only [transferHandshake, size, context]
  cases outcome.malloc with
  | none => rfl
  | some block => rfl

theorem chunkTransfer_congr {known : Set ℕ} (agree : Set.EqOn page page' known)
    (dataSize : ActionTransferEscapeData.chunkDataSize.bytes ⊆ known) :
    chunkTransfer page = chunkTransfer page' := by
  simp only [chunkTransfer, ByteMem.get_eq_of_eqOn agree dataSize]

theorem transferChunk_congr {known : Set ℕ} (agree : Set.EqOn page page' known)
    (dataSize : ActionTransferEscapeData.chunkDataSize.bytes ⊆ known)
    (data : Set.Ico ActionTransferEscapeData.chunkData
      (ActionTransferEscapeData.chunkData + chunkTransfer page) ⊆ known) :
    (transferChunk manager page).map resultOf = (transferChunk manager page').map resultOf := by
  have bytes := ByteMem.readBytes_eq_of_eqOn agree data
  simp only [transferChunk, ← chunkTransfer_congr agree dataSize, bytes]
  split
  · rfl
  · split
    · rfl
    · split
      · rfl
      · rfl

theorem handleMmap_congr {known : Set ℕ} (agree : Set.EqOn page page' known)
    (fd : ActionCommon.fd.bytes ⊆ known)
    (request : Set.Ico (FaultData.data + 40)
      (FaultData.data + ActionMmapDevice.size + 8 * page.get ActionMmapDevice.pfnSize) ⊆ known) :
    (handleMmap outcome manager page).map resultOf =
        (handleMmap outcome manager page').map resultOf ∧
      handleMmapWrites outcome page = handleMmapWrites outcome page' := by
  have field : ∀ field : Field, FaultData.data + 40 ≤ field.offset →
      field.offset + field.width ≤ FaultData.data + ActionMmapDevice.size +
          8 * page.get ActionMmapDevice.pfnSize →
        page.get field = page'.get field := by
    intro field lower upper
    apply ByteMem.get_eq_of_eqOn agree
    exact (Set.Ico_subset_Ico lower upper).trans request
  have header : ∀ {bound : ℕ}, bound ≤ FaultData.data + ActionMmapDevice.size →
      bound ≤ FaultData.data + ActionMmapDevice.size +
        8 * page.get ActionMmapDevice.pfnSize :=
    fun inHeader => inHeader.trans (Nat.le_add_right _ _)
  have pfnSize := field ActionMmapDevice.pfnSize (by decide) (header (by decide))
  have vmPgoff := field ActionMmapDevice.vmPgoff (by decide) (header (by decide))
  have vmFlags := field ActionMmapDevice.vmFlags (by decide) (header (by decide))
  have vmPageProt := field ActionMmapDevice.vmPageProt (by decide) (header (by decide))
  have file := ByteMem.get_eq_of_eqOn agree fd
  have listed_iff : MmapListed page ↔ MmapListed page' := by rw [MmapListed, MmapListed, pfnSize]
  have addrs : mmapAddrs manager page = mmapAddrs manager page' := by
    simp only [mmapAddrs, pfnAddrs, ← pfnSize]
    apply List.map_congr_left
    intro index index_lt
    have listed := List.mem_range.mp index_lt
    rw [field (ActionMmapDevice.pfn index)]
    · simp only [ActionMmapDevice.pfn, dataField]
      omega
    · simp only [ActionMmapDevice.pfn, dataField, ActionMmapDevice.size]
      omega
  refine ⟨?_, by simp only [handleMmapWrites, listed_iff]⟩
  by_cases failed : outcome.malloc = none
  · rw [handleMmap_of_failed failed, handleMmap_of_failed failed]
    rfl
  by_cases listed : MmapListed page
  · rw [handleMmap_of_listed failed listed, handleMmap_of_listed failed (listed_iff.mp listed)]
    simp only [Option.map_some, resultOf, mmapCall, ByteMem.getInt, file, vmPgoff, vmFlags,
      vmPageProt, pfnSize, addrs]
  · rw [handleMmap_of_not_listed failed listed,
      handleMmap_of_not_listed failed (mt listed_iff.mpr listed)]

/-- The path ends at its first null byte, so it is known when the bytes up to one are. -/
theorem devicePath_congr {known : Set ℕ} (agree : Set.EqOn page page' known) {length : ℕ}
    (null : page (ActionOpenclose.device + length) = 0) (within : length < 4096)
    (path : Set.Ico ActionOpenclose.device (ActionOpenclose.device + length + 1) ⊆ known) :
    devicePath page = devicePath page' := by
  have bytes : page.readBytes ActionOpenclose.device (length + 1) =
      page'.readBytes ActionOpenclose.device (length + 1) :=
    ByteMem.readBytes_eq_of_eqOn agree path
  have split : ∀ page : ByteMem, page.readBytes ActionOpenclose.device 4096 =
      page.readBytes ActionOpenclose.device (length + 1) ++
        page.readBytes (ActionOpenclose.device + (length + 1)) (4096 - (length + 1)) := by
    intro page
    rw [← ByteMem.readBytes_add, Nat.add_sub_cancel' within]
  have ends : ((page.readBytes ActionOpenclose.device (length + 1)).takeWhile (· ≠ 0)).length ≠
      (page.readBytes ActionOpenclose.device (length + 1)).length := by
    intro whole
    have all := (List.takeWhile_prefix _).eq_of_length whole
    have listed : page (ActionOpenclose.device + length) ∈
        page.readBytes ActionOpenclose.device (length + 1) :=
      List.mem_map.mpr ⟨length, List.mem_range.mpr (Nat.lt_succ_self _), rfl⟩
    rw [← all] at listed
    exact absurd null (by simpa using List.all_eq_true.mp List.all_takeWhile _ listed)
  rw [devicePath, devicePath, split page, split page', ← bytes, List.takeWhile_append, if_neg ends,
    List.takeWhile_append, if_neg ends]

end Replies

namespace Host

/-- Hosts in the same state; the requests that they have served may differ in their pages. -/
structure Alike (left right : Host) : Prop where
  manager : left.manager = right.manager
  serving : left.serving = right.serving
  outcomes : left.outcomes = right.outcomes
  served : left.served.length = right.served.length

theorem Alike.outcome {left right : Host} (alike : left.Alike right) :
    left.outcome = right.outcome := by
  rw [Host.outcome, Host.outcome, alike.outcomes, alike.served]

theorem length_servedAfter {host : Host} {page : ByteMem}
    (turn : page.get FaultData.turn = FhTurn.host.code) :
    (host.servedAfter page).length = host.served.length + 1 := by
  simp [servedAfter, turn]

theorem onEscape_of_some {host : Host} {page page' : ByteMem} {manager : Manager} {ret : ℤ}
    (serving : host.serving = true) (returned : host.handle page = some (ret, manager, page')) :
    host.onEscape page =
      ({ host with
          manager := manager
          serving := ret = 0
          served := host.servedAfter page }, page') := by
  have completes : host.completes page = decide (ret = 0) := by
    by_cases zero : ret = 0 <;> simp [Host.completes, returned, fhFaultHandlerNext, zero]
  simp only [onEscape, serving, ↓reduceIte, returned, completes]

theorem onEscape_of_none {host : Host} {page : ByteMem} (serving : host.serving = true)
    (died : host.handle page = none) :
    host.onEscape page =
      ({ host with serving := false, served := host.servedAfter page }, page) := by
  simp only [onEscape, serving, ↓reduceIte, died]

/-- What two hosts make of two requests. -/
structure AnsweredAlike (left right : Host) (request request' : ByteMem) (known : Set ℕ) :
    Prop where
  host : (left.onEscape request).1.Alike (right.onEscape request').1
  page : Set.EqOn (left.onEscape request).2 (right.onEscape request').2 known
  /-- A reply gives the two pages the same contents on all bytes that it writes. -/
  replied : (left.onEscape request).2.get FaultData.turn = FhTurn.guest.code →
    ∃ ret manager writes,
      replyOf left.outcome left.manager request = some (ret, manager, writes) ∧ 0 ≤ ret ∧
      Set.EqOn (left.onEscape request).2 (right.onEscape request').2
        (known ∪ writtenBytes writes)

theorem Alike.after {left right : Host} {page page' : ByteMem} {manager manager' : Manager}
    (alike : left.Alike right) (managers : manager = manager')
    (turn : page.get FaultData.turn = FhTurn.host.code)
    (turn' : page'.get FaultData.turn = FhTurn.host.code) (serving : Bool) :
    Alike
      { left with manager := manager, serving := serving, served := left.servedAfter page }
      { right with
        manager := manager', serving := serving, served := right.servedAfter page' } := by
  refine ⟨managers, rfl, alike.outcomes, ?_⟩
  dsimp only
  rw [length_servedAfter turn, length_servedAfter turn', alike.served]

theorem AnsweredAlike.of_eq {left right left' right' : Host} {page page' : ByteMem}
    {request request' : ByteMem} {known : Set ℕ}
    (answered : left.onEscape request = (left', page))
    (answered' : right.onEscape request' = (right', page')) (host : left'.Alike right')
    (agree : Set.EqOn page page' known)
    (replied : page.get FaultData.turn = FhTurn.guest.code →
      ∃ ret manager writes,
        replyOf left.outcome left.manager request = some (ret, manager, writes) ∧ 0 ≤ ret ∧
        Set.EqOn page page' (known ∪ writtenBytes writes)) :
    AnsweredAlike left right request request' known := by
  constructor <;> rw [answered, answered'] <;> assumption

theorem onEscape_alike {left right : Host} {page page' : ByteMem} {known : Set ℕ}
    (alike : left.Alike right) (agree : Set.EqOn page page' known)
    (turn : page.get FaultData.turn = FhTurn.host.code)
    (turn' : page'.get FaultData.turn = FhTurn.host.code)
    (same : replyOf left.outcome left.manager page = replyOf left.outcome left.manager page') :
    AnsweredAlike left right page page' known := by
  -- a page that keeps the turn of the host carries no reply
  have noReply : ∀ {reply : Prop}, page.get FaultData.turn = FhTurn.guest.code → reply := by
    intro reply guest
    rw [turn] at guest
    exact absurd guest (by decide)
  cases serving : left.serving with
  | false =>
      have serving' : right.serving = false := by rw [← alike.serving, serving]
      exact .of_eq (onEscape_of_idle (Or.inl serving)) (onEscape_of_idle (Or.inl serving')) alike
        agree noReply
  | true =>
      have serving' : right.serving = true := by rw [← alike.serving, serving]
      cases reply : replyOf left.outcome left.manager page with
      | none =>
          have unhandled' := replyOf_eq_none.mp (same.symm.trans reply)
          rw [alike.outcome, alike.manager] at unhandled'
          have died : left.handle page = none := handle_of_died turn (replyOf_eq_none.mp reply)
          have died' : right.handle page' = none := handle_of_died turn' unhandled'
          exact .of_eq (onEscape_of_none serving died) (onEscape_of_none serving' died')
            (alike.after alike.manager turn turn' false) agree noReply
      | some result =>
          rcases result with ⟨ret, manager, writes⟩
          have handled := handleAction_of_replyOf reply
          have handled' := handleAction_of_replyOf (same.symm.trans reply)
          rw [alike.outcome, alike.manager] at handled'
          have agreed := ByteMem.eqOn_applying agree writes
          by_cases negative : ret < 0
          · refine .of_eq (onEscape_of_some serving (handle_of_refused turn handled negative))
              (onEscape_of_some serving' (handle_of_refused turn' handled' negative))
              (alike.after rfl turn turn' _) (agreed.mono Set.subset_union_left) ?_
            rw [(handleAction_headerEq handled).get_eq (by decide)]
            exact noReply
          · have nonneg := not_lt.mp negative
            have agreed' := (ByteMem.eqOn_set agreed FaultData.turn FhTurn.guest.code).mono
              Set.subset_union_left
            exact .of_eq (onEscape_of_some serving (handle_of_completed turn handled nonneg))
              (onEscape_of_some serving' (handle_of_completed turn' handled' nonneg))
              (alike.after rfl turn turn' _) (agreed'.mono Set.subset_union_left)
              fun _ => ⟨ret, manager, writes, reply, nonneg, agreed'⟩

end Host

end Acai
