import Acai.Guest.VerifyMapping
import Acai.Lib.Trace
import Acai.Manager.Writes

/-!
# The accesses of the handlers

The handlers of `on_fault` are functions of the page, so their accesses do not
show in their results. This file lists, for the cases of `on_fault` whose accesses
depend on the request, which fields they read and write, with the branches of the
source; a field that is read several times is listed once. A list of page frame
numbers is listed whole, also where it leaves the mapped buffer and the process dies
at the first number behind it.

Two facts tie the lists to the handlers. A handler writes no field that is not
listed (`FaultCase.written_mem_accesses`), and what it makes of a request depends
only on the bytes that are listed as read (`FaultCase.replyOf_congr`).
-/

namespace Acai

def Field.read (field : Field) : Access := .load field.offset field.width

def Field.written (field : Field) : Access := .store field.offset field.width

def setRetAndErrNoAccesses : List Access :=
  [ActionCommon.fd.written, ActionCommon.ret.written, ActionCommon.errNo.written]

def handleMmapAccesses (outcome : FaultOutcome) (page : ByteMem) : List Access :=
  ActionMmapDevice.pfnSize.read ::
    match outcome.malloc with
    | none => []
    | some _ =>
        (List.range (page.get ActionMmapDevice.pfnSize)).map
            (fun index => (ActionMmapDevice.pfn index).read) ++
          [ActionMmapDevice.vmPgoff.read, ActionMmapDevice.vmPageProt.read,
            ActionMmapDevice.vmFlags.read, ActionCommon.fd.read] ++
          setRetAndErrNoAccesses

def doDmaAccesses (manager : Manager) (page : ByteMem) : List Access :=
  let pagesNr := page.get ActionDma.pagesNr
  if manager.transfer.infoCtx ≠ FhAction.dma.code then setRetAndErrNoAccesses
  else
    ActionDma.pagesNr.read ::
      if pagesNr ≠ 0 ∧ manager.transfer.ptr = none then []
      else if (translateChunks manager.ctx pagesNr 0
          (manager.transfer.ptr.getD ByteMem.zero)).isSome then
        [ActionDma.phyAddr.read, ActionDma.doWrite.read, ActionDma.userBuf.read,
          ActionDma.doAperture.read, ActionDma.len.read, ActionCommon.fd.read] ++
          setRetAndErrNoAccesses
      else setRetAndErrNoAccesses

def handleUnmapAccesses (outcome : FaultOutcome) (manager : Manager) (page : ByteMem) :
    List Access :=
  ActionUnmap.pfnSize.read ::
    match outcome.malloc with
    | none => []
    | some _ =>
        (List.range (page.get ActionUnmap.pfnSize)).map
            (fun index => (ActionUnmap.pfn index).read) ++
          [ActionCommon.fd.read] ++ setRetAndErrNoAccesses ++
          doDmaAccesses manager
            (setRetAndErrNo page outcome.unmmapRet.toInt outcome.errno.toInt)

def handleEmptyMappingsAccesses (manager : Manager) (page : ByteMem) : List Access :=
  let start := searchStart manager.ctx (page.get ActionEmptyMappings.lastPfn)
  let (_, found, _) := emptyMappingsLoop manager.ctx
    (min hostPfnMax (page.get ActionEmptyMappings.pfnMaxNrGuest))
    (manager.ctx.addrMapPfnMax.toNat - start) start 0 page
  [ActionEmptyMappings.pfnMaxNrGuest.read, ActionEmptyMappings.lastPfn.read] ++
    (List.range found).map (fun index => (ActionEmptyMappings.pfn index).written) ++
    [ActionEmptyMappings.lastPfn.written, ActionEmptyMappings.pfnNr.written] ++
    setRetAndErrNoAccesses

def transferChunkAccesses (manager : Manager) (page : ByteMem) : List Access :=
  let transfer := chunkTransfer page
  ActionTransferEscapeData.chunkDataSize.read ::
    if manager.transfer.size < u64 (manager.transfer.chunk + transfer) then []
    else
      [.load ActionTransferEscapeData.chunkData transfer, ActionTransferEscapeData.status.written]

def doActionTransferEscapeDataAccesses (manager : Manager) (page : ByteMem) : List Access :=
  let status := page.getInt ActionTransferEscapeData.status
  ActionTransferEscapeData.status.read ::
    if status = TransferStatus.transferSize.code then
      [ActionTransferEscapeData.chunkSize.written, ActionTransferEscapeData.totalSize.read,
        ActionTransferEscapeData.infoCtx.read, ActionTransferEscapeData.status.written]
    else if status = TransferStatus.transferData.code then transferChunkAccesses manager page
    else []

/-- The cases of `on_fault` whose accesses depend on the request. -/
inductive FaultCase where
  | mmap
  | unmap
  | getEmptyMappings
  | transferEscapeData
  deriving DecidableEq

def FaultCase.accesses (outcome : FaultOutcome) (manager : Manager) (page : ByteMem) :
    FaultCase → List Access
  | mmap => handleMmapAccesses outcome page
  | unmap => handleUnmapAccesses outcome manager page
  | getEmptyMappings => handleEmptyMappingsAccesses manager page
  | transferEscapeData => doActionTransferEscapeDataAccesses manager page

/-! ## The lists are complete -/

def FaultCase.action : FaultCase → FhAction
  | mmap => .mmap
  | unmap => .unmap
  | getEmptyMappings => .getEmptyMappings
  | transferEscapeData => .transferEscapeData

/-- The bytes that the listed accesses read. -/
def loadedBytes (accesses : List Access) : Set ℕ :=
  {address | ∃ offset size, Access.load offset size ∈ accesses ∧
    address ∈ Set.Ico offset (offset + size)}

section

variable {outcome : FaultOutcome} {manager : Manager} {page page' : ByteMem}

theorem bytes_subset_loadedBytes {accesses : List Access} {field : Field}
    (listed : field.read ∈ accesses) : field.bytes ⊆ loadedBytes accesses :=
  fun _ inside => ⟨field.offset, field.width, listed, inside⟩

theorem written_mem_of_retWrites (ret errno : ℤ) :
    ∀ write ∈ retWrites ret errno, write.field.written ∈ setRetAndErrNoAccesses := by
  simp [retWrites, setRetAndErrNoAccesses, Field.writing]

theorem found_le_emptyMappingsLoop (ctx : CtxStruct) (maxMappings count pfn found : ℕ)
    (page : ByteMem) : found ≤ (emptyMappingsLoop ctx maxMappings count pfn found page).2.1 := by
  induction count generalizing pfn found page with
  | zero => exact le_rfl
  | succ count ih =>
      simp only [emptyMappingsLoop]
      split
      · exact le_rfl
      · split
        · exact (Nat.le_succ found).trans (ih _ _ _)
        · exact ih _ _ _

theorem field_of_emptyMappingsWrites (ctx : CtxStruct) (maxMappings count pfn found : ℕ)
    (page : ByteMem) :
    ∀ write ∈ emptyMappingsWrites ctx maxMappings count pfn found,
      ∃ index < (emptyMappingsLoop ctx maxMappings count pfn found page).2.1,
        write.field = ActionEmptyMappings.pfn index := by
  induction count generalizing pfn found page with
  | zero => simp [emptyMappingsWrites]
  | succ count ih =>
      simp only [emptyMappingsWrites, emptyMappingsLoop]
      split
      · simp
      · split
        · rw [List.forall_mem_cons]
          exact ⟨⟨found, found_le_emptyMappingsLoop _ _ _ _ _ _, rfl⟩, ih _ _ _⟩
        · exact ih _ _ _

/-- A handler writes listed fields only. -/
theorem FaultCase.written_mem_accesses (case : FaultCase)
    (action : page.get FaultData.action = case.action.code) :
    ∀ write ∈ replyWrites outcome manager page,
      write.field.written ∈ case.accesses outcome manager page := by
  intro write isWrite
  simp only [replyWrites, action, FhAction.ofCode_code] at isWrite
  cases case with
  | mmap =>
      simp only [FaultCase.action, FaultCase.accesses, handleMmapAccesses, handleMmapWrites]
        at isWrite ⊢
      cases allocated : outcome.malloc with
      | none => simp [allocated] at isWrite
      | some block =>
          have listed : write.field.written ∈ setRetAndErrNoAccesses := by
            split at isWrite
            · cases isWrite
            · exact written_mem_of_retWrites _ _ write isWrite
          exact List.mem_cons_of_mem _ (List.mem_append_right _ listed)
  | unmap =>
      simp only [FaultCase.action, FaultCase.accesses, handleUnmapAccesses, handleUnmapWrites]
        at isWrite ⊢
      cases allocated : outcome.malloc with
      | none => simp [allocated] at isWrite
      | some block =>
          have listed : write.field.written ∈ setRetAndErrNoAccesses := by
            split at isWrite
            · cases isWrite
            rcases List.mem_append.mp isWrite with isWrite | isWrite
            · exact written_mem_of_retWrites _ _ write isWrite
            · split at isWrite
              · cases isWrite
              · exact written_mem_of_retWrites _ _ write isWrite
          exact List.mem_cons_of_mem _ (List.mem_append_left _ (List.mem_append_right _ listed))
  | getEmptyMappings =>
      simp only [FaultCase.action, FaultCase.accesses] at isWrite ⊢
      simp only [handleEmptyMappingsWrites, List.mem_append] at isWrite
      simp only [handleEmptyMappingsAccesses, List.mem_append]
      rcases isWrite with isEntry | isHeader
      · rcases field_of_emptyMappingsWrites _ _ _ _ _ page write isEntry with
          ⟨index, index_lt, field_eq⟩
        refine Or.inl (Or.inl (Or.inr (List.mem_map.mpr ⟨index, List.mem_range.mpr index_lt, ?_⟩)))
        rw [field_eq]
      · simp only [List.mem_cons, List.not_mem_nil, or_false] at isHeader
        rcases isHeader with rfl | rfl | rfl | rfl | rfl
        · exact Or.inl (Or.inr List.mem_cons_self)
        · exact Or.inl (Or.inr (List.mem_cons_of_mem _ List.mem_cons_self))
        · exact Or.inr (written_mem_of_retWrites 0 0 _ (by simp [retWrites]))
        · exact Or.inr (written_mem_of_retWrites 0 0 _ (by simp [retWrites]))
        · exact Or.inr (written_mem_of_retWrites 0 0 _ (by simp [retWrites]))
  | transferEscapeData =>
      simp only [FaultCase.action, FaultCase.accesses, doActionTransferEscapeDataWrites,
        doActionTransferEscapeDataAccesses] at isWrite ⊢
      refine List.mem_cons_of_mem _ ?_
      split at isWrite
      · rename_i handshake
        rw [if_pos handshake]
        simp only [List.mem_cons, List.not_mem_nil, or_false] at isWrite
        rcases isWrite with rfl | rfl
        · exact List.mem_cons_self
        · simp [Field.writing]
      · rename_i notHandshake
        rw [if_neg notHandshake]
        split at isWrite
        · rename_i isChunk
          rw [if_pos isChunk]
          split at isWrite
          · cases isWrite
          · rename_i fits
            simp only [List.mem_singleton] at isWrite
            simp only [transferChunkAccesses, if_neg fits, isWrite]
            simp [Field.writing]
        · cases isWrite

/-! ### What the handlers read -/

theorem loadedBytes_mono {accesses accesses' : List Access} (more : accesses ⊆ accesses') :
    loadedBytes accesses ⊆ loadedBytes accesses' := by
  rintro address ⟨offset, size, listed, inside⟩
  exact ⟨offset, size, more listed, inside⟩

theorem doDma_congr_of_accesses
    (agree : Set.EqOn page page' (loadedBytes (doDmaAccesses manager page))) :
    (doDma outcome manager page).map resultOf = (doDma outcome manager page').map resultOf := by
  by_cases announced : manager.transfer.infoCtx ≠ FhAction.dma.code
  · simp only [doDma, if_pos announced]
    rfl
  · have pagesNr : page.get ActionDma.pagesNr = page'.get ActionDma.pagesNr := by
      apply ByteMem.get_eq_of_eqOn agree
      apply bytes_subset_loadedBytes
      rw [doDmaAccesses, if_neg announced]
      exact List.mem_cons_self
    by_cases unbacked : page.get ActionDma.pagesNr ≠ 0 ∧ manager.transfer.ptr = none
    · simp only [doDma, if_neg announced, ← pagesNr, if_pos unbacked]
    · cases translated : translateChunks manager.ctx (page.get ActionDma.pagesNr) 0
          (manager.transfer.ptr.getD ByteMem.zero) with
      | none =>
          simp only [doDma, if_neg announced, ← pagesNr, if_neg unbacked, translated]
          rfl
      | some chunks =>
          have accesses : doDmaAccesses manager page = ActionDma.pagesNr.read ::
              ([ActionDma.phyAddr.read, ActionDma.doWrite.read, ActionDma.userBuf.read,
                ActionDma.doAperture.read, ActionDma.len.read, ActionCommon.fd.read] ++
                setRetAndErrNoAccesses) := by
            simp only [doDmaAccesses, if_neg announced, if_neg unbacked, translated,
              Option.isSome_some, ↓reduceIte]
          have read : ∀ field : Field, field.read ∈ doDmaAccesses manager page →
              field.bytes ⊆ loadedBytes (doDmaAccesses manager page) :=
            fun _ listed => bytes_subset_loadedBytes listed
          apply doDma_congr outcome manager agree
          · exact read ActionCommon.fd (by simp [accesses])
          · rintro address ⟨lower, upper⟩
            rcases lt_or_ge address ActionDma.doWrite.offset with inPhyAddr | fromDoWrite
            · exact read ActionDma.phyAddr (by simp [accesses]) ⟨lower, inPhyAddr⟩
            rcases lt_or_ge address ActionDma.doAperture.offset with inDoWrite | fromDoAperture
            · exact read ActionDma.doWrite (by simp [accesses]) ⟨fromDoWrite, inDoWrite⟩
            rcases lt_or_ge address ActionDma.userBuf.offset with inDoAperture | fromUserBuf
            · exact read ActionDma.doAperture (by simp [accesses]) ⟨fromDoAperture, inDoAperture⟩
            rcases lt_or_ge address ActionDma.len.offset with inUserBuf | fromLen
            · exact read ActionDma.userBuf (by simp [accesses]) ⟨fromUserBuf, inUserBuf⟩
            rcases lt_or_ge address ActionDma.pagesNr.offset with inLen | fromPagesNr
            · exact read ActionDma.len (by simp [accesses]) ⟨fromLen, inLen⟩
            · exact read ActionDma.pagesNr (by simp [accesses]) ⟨fromPagesNr, upper⟩

/-- The entries of a list of words that begins at `base`. -/
theorem mem_word {base count address : ℕ} (lower : base ≤ address)
    (upper : address < base + 8 * count) :
    ∃ index < count, address ∈ Set.Ico (base + 8 * index) (base + 8 * index + 8) :=
  ⟨(address - base) / 8, by omega, by omega, by omega⟩

theorem handleMmap_congr_of_accesses (manager : Manager)
    (agree : Set.EqOn page page' (loadedBytes (handleMmapAccesses outcome page))) :
    (handleMmap outcome manager page).map resultOf =
        (handleMmap outcome manager page').map resultOf ∧
      handleMmapWrites outcome page = handleMmapWrites outcome page' := by
  cases allocated : outcome.malloc with
  | none =>
      rw [handleMmap_of_failed allocated, handleMmap_of_failed allocated, handleMmapWrites,
        handleMmapWrites, if_pos (Or.inl (by simp [allocated])),
        if_pos (Or.inl (by simp [allocated]))]
      exact ⟨rfl, rfl⟩
  | some block =>
      have read : ∀ field : Field, field.read ∈ handleMmapAccesses outcome page →
          field.bytes ⊆ loadedBytes (handleMmapAccesses outcome page) :=
        fun _ listed => bytes_subset_loadedBytes listed
      apply handleMmap_congr outcome manager agree
      · exact read ActionCommon.fd (by simp [handleMmapAccesses, allocated])
      · rintro address ⟨lower, upper⟩
        rcases lt_or_ge address ActionMmapDevice.vmFlags.offset with inPgoff | fromFlags
        · exact read ActionMmapDevice.vmPgoff (by simp [handleMmapAccesses, allocated])
            ⟨lower, inPgoff⟩
        rcases lt_or_ge address ActionMmapDevice.vmPageProt.offset with inFlags | fromPageProt
        · exact read ActionMmapDevice.vmFlags (by simp [handleMmapAccesses, allocated])
            ⟨fromFlags, inFlags⟩
        rcases lt_or_ge address ActionMmapDevice.pfnSize.offset with inPageProt | fromPfnSize
        · exact read ActionMmapDevice.vmPageProt (by simp [handleMmapAccesses, allocated])
            ⟨fromPageProt, inPageProt⟩
        rcases lt_or_ge address (FaultData.data + ActionMmapDevice.size) with inPfnSize | fromPfns
        · exact read ActionMmapDevice.pfnSize (by simp [handleMmapAccesses, allocated])
            ⟨fromPfnSize, inPfnSize⟩
        · rcases mem_word fromPfns upper with ⟨index, index_lt, inside⟩
          refine read (ActionMmapDevice.pfn index) ?_ ?_
          · simp only [handleMmapAccesses, allocated, List.mem_cons, List.mem_append, List.mem_map,
              List.mem_range]
            exact Or.inr (Or.inl (Or.inl ⟨index, index_lt, rfl⟩))
          · simp only [Field.bytes, ActionMmapDevice.pfn, dataField, FaultData.data,
              ActionMmapDevice.size, Set.mem_Ico] at inside ⊢
            omega

theorem handleUnmap_congr_of_accesses
    (agree : Set.EqOn page page' (loadedBytes (handleUnmapAccesses outcome manager page))) :
    (handleUnmap outcome manager page).map resultOf =
        (handleUnmap outcome manager page').map resultOf ∧
      (UnmapListed page ↔ UnmapListed page') := by
  have read : ∀ field : Field, field.read ∈ handleUnmapAccesses outcome manager page →
      page.get field = page'.get field :=
    fun _ isRead => ByteMem.get_eq_of_eqOn agree (bytes_subset_loadedBytes isRead)
  have pfnSize := read ActionUnmap.pfnSize List.mem_cons_self
  have listed_iff : UnmapListed page ↔ UnmapListed page' := by
    rw [UnmapListed, UnmapListed, pfnSize]
  refine ⟨?_, listed_iff⟩
  by_cases failed : outcome.malloc = none
  · rw [handleUnmap_of_failed failed, handleUnmap_of_failed failed]
    rfl
  by_cases listed : UnmapListed page
  swap
  · rw [handleUnmap_of_not_listed failed listed,
      handleUnmap_of_not_listed failed (mt listed_iff.mpr listed)]
  rcases Option.ne_none_iff_exists'.mp failed with ⟨block, allocated⟩
  have fd := read ActionCommon.fd (by simp [handleUnmapAccesses, allocated])
  have addrs : unmapAddrs manager page = unmapAddrs manager page' := by
    simp only [unmapAddrs, pfnAddrs, ← pfnSize]
    apply List.map_congr_left
    intro index index_lt
    rw [read (ActionUnmap.pfn index)]
    simp only [handleUnmapAccesses, allocated, List.mem_cons, List.mem_append, List.mem_map]
    exact Or.inr (Or.inl (Or.inl (Or.inl ⟨index, index_lt, rfl⟩)))
  have sameCall : unmapCall outcome manager page (unmapAddrs manager page) =
      unmapCall outcome manager page' (unmapAddrs manager page') := by
    simp only [unmapCall, ByteMem.getInt, fd, pfnSize, addrs]
  rw [handleUnmap_of_listed failed listed, handleUnmap_of_listed failed (listed_iff.mp listed),
    ← sameCall]
  apply doDma_congr_of_accesses
  refine (ByteMem.eqOn_applying agree
    (retWrites outcome.unmmapRet.toInt outcome.errno.toInt)).mono ?_
  refine (loadedBytes_mono ?_).trans Set.subset_union_left
  intro access isAccess
  simp only [handleUnmapAccesses, allocated]
  exact List.mem_cons_of_mem _ (List.mem_append_right _ isAccess)

theorem emptyMappingsLoop_congr (ctx : CtxStruct) (maxMappings count pfn found : ℕ)
    (page page' : ByteMem) :
    (emptyMappingsLoop ctx maxMappings count pfn found page).1 =
        (emptyMappingsLoop ctx maxMappings count pfn found page').1 ∧
      (emptyMappingsLoop ctx maxMappings count pfn found page).2.1 =
        (emptyMappingsLoop ctx maxMappings count pfn found page').2.1 := by
  induction count generalizing pfn found page page' with
  | zero => exact ⟨rfl, rfl⟩
  | succ count ih =>
      simp only [emptyMappingsLoop]
      split
      · exact ⟨rfl, rfl⟩
      · split
        · exact ih _ _ _ _
        · exact ih _ _ _ _

theorem handleEmptyMappingsWrites_congr
    (agree : Set.EqOn page page' (loadedBytes (handleEmptyMappingsAccesses manager page))) :
    handleEmptyMappingsWrites manager page = handleEmptyMappingsWrites manager page' := by
  have pfnMax : page.get ActionEmptyMappings.pfnMaxNrGuest =
      page'.get ActionEmptyMappings.pfnMaxNrGuest :=
    ByteMem.get_eq_of_eqOn agree
      (bytes_subset_loadedBytes (by simp [handleEmptyMappingsAccesses]))
  have lastPfn : page.get ActionEmptyMappings.lastPfn = page'.get ActionEmptyMappings.lastPfn :=
    ByteMem.get_eq_of_eqOn agree
      (bytes_subset_loadedBytes (by simp [handleEmptyMappingsAccesses]))
  simp only [handleEmptyMappingsWrites, pfnMax, lastPfn]
  rw [(emptyMappingsLoop_congr _ _ _ _ _ page page').1,
    (emptyMappingsLoop_congr _ _ _ _ _ page page').2]

theorem transferChunk_congr_of_accesses
    (agree : Set.EqOn page page' (loadedBytes (transferChunkAccesses manager page))) :
    chunkTransfer page = chunkTransfer page' ∧
      (transferChunk manager page).map resultOf = (transferChunk manager page').map resultOf := by
  have dataSize : ActionTransferEscapeData.chunkDataSize.bytes ⊆
      loadedBytes (transferChunkAccesses manager page) :=
    bytes_subset_loadedBytes List.mem_cons_self
  have transfer := chunkTransfer_congr agree dataSize
  refine ⟨transfer, ?_⟩
  by_cases overruns : manager.transfer.size < u64 (manager.transfer.chunk + chunkTransfer page)
  · simp only [transferChunk, ← transfer, if_pos overruns]
    rfl
  · apply transferChunk_congr manager agree dataSize
    intro address inside
    refine ⟨ActionTransferEscapeData.chunkData, chunkTransfer page, ?_, inside⟩
    simp [transferChunkAccesses, if_neg overruns]

/-- What a handler makes of a request depends only on the bytes that it reads. -/
theorem FaultCase.replyOf_congr (case : FaultCase)
    (action : page.get FaultData.action = case.action.code)
    (action' : page'.get FaultData.action = case.action.code)
    (agree : Set.EqOn page page' (loadedBytes (case.accesses outcome manager page))) :
    replyOf outcome manager page = replyOf outcome manager page' := by
  cases case with
  | mmap =>
      rcases handleMmap_congr_of_accesses manager agree with ⟨results, writes⟩
      rw [replyOf_mmap _ _ action, replyOf_mmap _ _ action', results, writes]
  | unmap =>
      rcases handleUnmap_congr_of_accesses agree with ⟨results, listed⟩
      rw [replyOf_unmap _ _ action, replyOf_unmap _ _ action', results]
      simp only [listed]
  | getEmptyMappings =>
      rw [replyOf_getEmptyMappings _ _ action, replyOf_getEmptyMappings _ _ action',
        handleEmptyMappingsWrites_congr agree]
  | transferEscapeData =>
      have read : ∀ field : Field, field.read ∈ doActionTransferEscapeDataAccesses manager page →
          field.bytes ⊆ loadedBytes (doActionTransferEscapeDataAccesses manager page) :=
        fun _ listed => bytes_subset_loadedBytes listed
      have status : page.getInt ActionTransferEscapeData.status =
          page'.getInt ActionTransferEscapeData.status :=
        ByteMem.getInt_eq_of_eqOn agree (read ActionTransferEscapeData.status List.mem_cons_self)
      by_cases handshake :
          page.getInt ActionTransferEscapeData.status = TransferStatus.transferSize.code
      · rw [replyOf_handshake _ _ action handshake,
          replyOf_handshake _ _ action' (status.symm.trans handshake),
          transferHandshake_congr _ _ agree
            (read ActionTransferEscapeData.totalSize
              (by simp [doActionTransferEscapeDataAccesses, handshake]))
            (read ActionTransferEscapeData.infoCtx
              (by simp [doActionTransferEscapeDataAccesses, handshake]))]
      by_cases isChunk :
          page.getInt ActionTransferEscapeData.status = TransferStatus.transferData.code
      · have accesses : transferChunkAccesses manager page ⊆
            doActionTransferEscapeDataAccesses manager page := by
          intro access isAccess
          simp only [doActionTransferEscapeDataAccesses, if_neg handshake, if_pos isChunk]
          exact List.mem_cons_of_mem _ isAccess
        rcases transferChunk_congr_of_accesses (agree.mono (loadedBytes_mono accesses)) with
          ⟨transfer, results⟩
        rw [replyOf_chunk _ _ action isChunk, replyOf_chunk _ _ action' (status.symm.trans isChunk),
          results, transfer]
      · rw [replyOf_transferIdle _ _ action handshake isChunk,
          replyOf_transferIdle _ _ action' (by rwa [← status]) (by rwa [← status])]

end

end Acai
