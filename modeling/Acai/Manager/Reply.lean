import Acai.Manager.Translation

/-!
# Replies of the host

Every fault that the guest raises expects a reply: `on_fault` returns 0 with the
turn handed back to the guest, and a failed device call shows in `common.ret`.
This file determines which requests get one.

The frame fact behind all of it is that no handler writes to the header of the
page (`handleAction_headerEq`). A handler replies exactly when it does not take
one of the early returns, and these are named per action by `Answerable`: an
allocation that fails, a chunk that overruns the announced size, a DMA without a
translated chunk list or whose ioctl fails. An early return leaves the turn with
the host and ends the listener loop `_fh_fault_handler`, so the failure never
reaches the guest as a reply. So does a list of page frame numbers that leaves the
mapped escape buffer (`PfnsMapped`), as the process dies on it. The request to
unmap runs into the handler of DMA and is held to its conditions as well.
-/

namespace Acai

/-! ## The addresses of a request -/

/-- A list of page frame numbers ends inside the mapped escape buffer. -/
def PfnsMapped (pfn : ℕ → Field) (count : ℕ) : Prop :=
  (pfn count).offset ≤ getMappedEscapeBufferSize

instance (pfn : ℕ → Field) (count : ℕ) : Decidable (PfnsMapped pfn count) :=
  inferInstanceAs (Decidable (_ ≤ _))

section Addrs

variable (ctx : CtxStruct) (page : ByteMem) (pfn : ℕ → Field) (size : ℕ)

theorem fillAddrs_of_inBounds (count index : ℕ)
    (inBounds : ∀ step < count, AddrInBounds pfn size (index + step)) :
    fillAddrs ctx page pfn size count index =
      some ((List.range' index count).map fun index =>
        getAddrMapVaddr ctx (page.get (pfn index))) := by
  induction count generalizing index with
  | zero => rfl
  | succ count ih =>
      have later : ∀ step < count, AddrInBounds pfn size (index + 1 + step) := by
        intro step step_lt
        rw [show index + 1 + step = index + (step + 1) by omega]
        exact inBounds (step + 1) (by omega)
      have first : AddrInBounds pfn size index := inBounds 0 (by omega)
      rw [fillAddrs, if_pos first, ih (index + 1) later]
      rfl

theorem fillAddrs_of_outOfBounds {count index step : ℕ} (step_lt : step < count)
    (outOfBounds : ¬AddrInBounds pfn size (index + step)) :
    fillAddrs ctx page pfn size count index = none := by
  induction count generalizing index step with
  | zero => omega
  | succ count ih =>
      rw [fillAddrs]
      rcases step with _ | step
      · exact if_neg outOfBounds
      · have later : ¬AddrInBounds pfn size (index + 1 + step) := by
          rwa [show index + 1 + step = index + (step + 1) by omega]
        have step_lt' : step < count := by omega
        rw [ih step_lt' later]
        split <;> rfl

/--
The loop gets through exactly when the numbers end inside the mapping. Before the size of the block
wraps, or the index overflows, the numbers have long left it.
-/
theorem fillAddrs_eq {start : ℕ} (words : ∀ index, pfn index = dataField (start + 8 * index) 8)
    (inHeader : start ≤ ActionMmapDevice.size) {count : ℕ} (count_lt : count < 2 ^ 64) :
    fillAddrs ctx page pfn (u64 (count * 8)) count 0 =
      if PfnsMapped pfn count then some (pfnAddrs ctx page pfn count) else none := by
  have mapped : getMappedEscapeBufferSize = 12288000 := by decide
  simp only [ActionMmapDevice.size] at inHeader
  split
  · rename_i listed
    simp only [PfnsMapped, words, dataField, FaultData.data, mapped] at listed
    have noWrap : u64 (count * 8) = count * 8 := Nat.mod_eq_of_lt (by omega)
    rw [pfnAddrs, List.range_eq_range', fillAddrs_of_inBounds]
    intro step step_lt
    simp only [AddrInBounds, words, dataField, FaultData.data, mapped, noWrap]
    omega
  · rename_i unlisted
    simp only [PfnsMapped, words, dataField, FaultData.data, mapped] at unlisted
    have last_lt : count - 1 < count := by omega
    refine fillAddrs_of_outOfBounds ctx page pfn _ last_lt ?_
    simp only [AddrInBounds, words, dataField, FaultData.data, mapped]
    omega

end Addrs

section MmapAndUnmap

variable {outcome : FaultOutcome} {manager : Manager} {page : ByteMem}

abbrev MmapListed (page : ByteMem) : Prop :=
  PfnsMapped ActionMmapDevice.pfn (page.get ActionMmapDevice.pfnSize)

abbrev UnmapListed (page : ByteMem) : Prop :=
  PfnsMapped ActionUnmap.pfn (page.get ActionUnmap.pfnSize)

def mmapAddrs (manager : Manager) (page : ByteMem) : List UInt64 :=
  pfnAddrs manager.ctx page ActionMmapDevice.pfn (page.get ActionMmapDevice.pfnSize)

def unmapAddrs (manager : Manager) (page : ByteMem) : List UInt64 :=
  pfnAddrs manager.ctx page ActionUnmap.pfn (page.get ActionUnmap.pfnSize)

theorem handleMmap_of_failed (failed : outcome.malloc = none) :
    handleMmap outcome manager page = some (-1, manager, page) := by
  rw [handleMmap, failed]

theorem handleMmap_of_listed (allocated : outcome.malloc ≠ none) (listed : MmapListed page) :
    handleMmap outcome manager page =
      some (0, manager.addCall (mmapCall outcome manager page (mmapAddrs manager page)),
        setRetAndErrNo page outcome.mmapRet.toInt outcome.errno.toInt) := by
  rcases Option.ne_none_iff_exists'.mp allocated with ⟨block, allocated⟩
  have filled := fillAddrs_eq manager.ctx page ActionMmapDevice.pfn (fun _ => rfl) le_rfl
    (page.get_lt ActionMmapDevice.pfnSize)
  rw [if_pos listed] at filled
  simp only [handleMmap, allocated, filled, mmapAddrs]

theorem handleMmap_of_not_listed (allocated : outcome.malloc ≠ none)
    (unlisted : ¬MmapListed page) : handleMmap outcome manager page = none := by
  rcases Option.ne_none_iff_exists'.mp allocated with ⟨block, allocated⟩
  have filled := fillAddrs_eq manager.ctx page ActionMmapDevice.pfn (fun _ => rfl) le_rfl
    (page.get_lt ActionMmapDevice.pfnSize)
  rw [if_neg unlisted] at filled
  simp only [handleMmap, allocated, filled]

theorem handleUnmap_of_failed (failed : outcome.malloc = none) :
    handleUnmap outcome manager page = some (-1, manager, page) := by
  rw [handleUnmap, failed]

theorem handleUnmap_of_listed (allocated : outcome.malloc ≠ none) (listed : UnmapListed page) :
    handleUnmap outcome manager page =
      doDma outcome
        (manager.addCall (unmapCall outcome manager page (unmapAddrs manager page)))
        (setRetAndErrNo page outcome.unmmapRet.toInt outcome.errno.toInt) := by
  rcases Option.ne_none_iff_exists'.mp allocated with ⟨block, allocated⟩
  have filled := fillAddrs_eq manager.ctx page ActionUnmap.pfn (fun _ => rfl) (by decide)
    (page.get_lt ActionUnmap.pfnSize)
  rw [if_pos listed] at filled
  simp only [handleUnmap, allocated, filled, unmapAddrs]

theorem handleUnmap_of_not_listed (allocated : outcome.malloc ≠ none)
    (unlisted : ¬UnmapListed page) : handleUnmap outcome manager page = none := by
  rcases Option.ne_none_iff_exists'.mp allocated with ⟨block, allocated⟩
  have filled := fillAddrs_eq manager.ctx page ActionUnmap.pfn (fun _ => rfl) (by decide)
    (page.get_lt ActionUnmap.pfnSize)
  rw [if_neg unlisted] at filled
  simp only [handleUnmap, allocated, filled]

theorem handleMmap_cases {handled : Handled}
    (step : handleMmap outcome manager page = some handled) :
    (outcome.malloc = none ∧ handled = (-1, manager, page)) ∨
    (outcome.malloc ≠ none ∧ MmapListed page ∧ handled =
      (0, manager.addCall (mmapCall outcome manager page (mmapAddrs manager page)),
        setRetAndErrNo page outcome.mmapRet.toInt outcome.errno.toInt)) := by
  by_cases failed : outcome.malloc = none
  · rw [handleMmap_of_failed failed, Option.some_inj] at step
    exact Or.inl ⟨failed, step.symm⟩
  by_cases listed : MmapListed page
  · rw [handleMmap_of_listed failed listed, Option.some_inj] at step
    exact Or.inr ⟨failed, listed, step.symm⟩
  · rw [handleMmap_of_not_listed failed listed] at step
    cases step

theorem handleUnmap_cases {handled : Handled}
    (step : handleUnmap outcome manager page = some handled) :
    (outcome.malloc = none ∧ handled = (-1, manager, page)) ∨
    (outcome.malloc ≠ none ∧ UnmapListed page ∧
      doDma outcome
        (manager.addCall (unmapCall outcome manager page (unmapAddrs manager page)))
        (setRetAndErrNo page outcome.unmmapRet.toInt outcome.errno.toInt) = some handled) := by
  by_cases failed : outcome.malloc = none
  · rw [handleUnmap_of_failed failed, Option.some_inj] at step
    exact Or.inl ⟨failed, step.symm⟩
  by_cases listed : UnmapListed page
  · rw [handleUnmap_of_listed failed listed] at step
    exact Or.inr ⟨failed, listed, step⟩
  · rw [handleUnmap_of_not_listed failed listed] at step
    cases step

end MmapAndUnmap

/-! ## The header is left alone -/

/-- Two pages with the same header. -/
def HeaderEq (page page' : ByteMem) : Prop :=
  ∀ address < FaultData.data, page' address = page address

namespace HeaderEq

variable {page page' page'' : ByteMem}

theorem refl (page : ByteMem) : HeaderEq page page := fun _ _ => rfl

theorem trans (first : HeaderEq page page') (second : HeaderEq page' page'') :
    HeaderEq page page'' := by
  intro address inHeader
  rw [second address inHeader, first address inHeader]

theorem writeBytes_of_le {offset : ℕ} {bytes : List UInt8} (inData : FaultData.data ≤ offset) :
    HeaderEq page (page.writeBytes offset bytes) := by
  intro address inHeader
  exact ByteMem.writeBytes_apply_of_lt (by omega)

theorem set (offset width value : ℕ) : HeaderEq page (page.set (dataField offset width) value) :=
  writeBytes_of_le (by simp [dataField])

theorem setInt (offset width : ℕ) (value : ℤ) :
    HeaderEq page (page.setInt (dataField offset width) value) :=
  set offset width _

theorem get_eq {field : Field} (same : HeaderEq page page')
    (inHeader : field.offset + field.width ≤ FaultData.data) :
    page'.get field = page.get field := by
  apply ByteMem.get_congr
  intro index index_lt
  exact same _ (by omega)

theorem setRetAndErrNo (ret errno : ℤ) : HeaderEq page (setRetAndErrNo page ret errno) :=
  ((setInt 0 4 ret).trans (setInt 4 8 ret)).trans (setInt 12 4 _)

theorem setRetAndErrNoDirect (ret : ℤ) : HeaderEq page (setRetAndErrNoDirect page ret) :=
  ((setInt 0 4 ret).trans (setInt 4 8 ret)).trans (setInt 12 4 _)

end HeaderEq

theorem emptyMappingsLoop_headerEq (ctx : CtxStruct) (maxMappings count pfn found : ℕ)
    (page : ByteMem) :
    HeaderEq page (emptyMappingsLoop ctx maxMappings count pfn found page).2.2 := by
  induction count generalizing pfn found page with
  | zero => exact HeaderEq.refl page
  | succ count ih =>
      simp only [emptyMappingsLoop]
      split
      · exact HeaderEq.refl page
      · split
        · exact (HeaderEq.set _ _ _).trans (ih _ _ _)
        · exact ih _ _ _

theorem handleEmptyMappings_headerEq (manager : Manager) (page : ByteMem) :
    HeaderEq page (handleEmptyMappings manager page).2.2 := by
  have searched := emptyMappingsLoop_headerEq manager.ctx
  rw [handleEmptyMappings]
  generalize emptyMappingsLoop manager.ctx = loop at searched ⊢
  exact (searched _ _ _ _ _).trans
    (((HeaderEq.set 16 4 _).trans (HeaderEq.set 28 8 _)).trans (HeaderEq.setRetAndErrNoDirect 0))

theorem transferHandshake_headerEq (outcome : FaultOutcome) (manager : Manager) (page : ByteMem) :
    HeaderEq page (transferHandshake outcome manager page).2.2 := by
  unfold transferHandshake
  cases outcome.malloc with
  | none => exact (HeaderEq.set 8 4 _).trans (HeaderEq.setInt 0 4 _)
  | some block => exact (HeaderEq.set 8 4 _).trans (HeaderEq.setInt 0 4 _)

theorem transferChunk_headerEq {manager : Manager} {page : ByteMem} {handled : Handled}
    (step : transferChunk manager page = some handled) : HeaderEq page handled.2.2 := by
  unfold transferChunk at step
  simp only at step
  split at step
  · cases step
    exact HeaderEq.refl page
  · split at step
    · cases step
      exact HeaderEq.setInt 0 4 _
    · split at step
      · cases step
        exact HeaderEq.setInt 0 4 _
      · cases step

theorem doDma_headerEq {outcome : FaultOutcome} {manager : Manager} {page : ByteMem}
    {handled : Handled} (step : doDma outcome manager page = some handled) :
    HeaderEq page handled.2.2 := by
  unfold doDma at step
  simp only at step
  split at step
  · cases step
    exact HeaderEq.setRetAndErrNo _ _
  · split at step
    · cases step
    · split at step <;>
      · cases step
        exact HeaderEq.setRetAndErrNo _ _

/-- No handler of `on_fault` writes to the header of the page. -/
theorem handleAction_headerEq {outcome : FaultOutcome} {manager : Manager} {page : ByteMem}
    {handled : Handled} (step : handleAction outcome manager page = some handled) :
    HeaderEq page handled.2.2 := by
  unfold handleAction at step
  split at step
  · cases step
    exact HeaderEq.refl page
  · cases step
    exact HeaderEq.refl page
  · cases step
    exact HeaderEq.setInt 0 4 _
  · cases step
    exact handleEmptyMappings_headerEq manager page
  · cases step
    exact HeaderEq.set 0 4 _
  · cases step
    exact (HeaderEq.setInt 0 4 _).trans (HeaderEq.setRetAndErrNo _ _)
  · cases step
    exact HeaderEq.setRetAndErrNo _ _
  · rcases handleMmap_cases step with ⟨-, rfl⟩ | ⟨-, -, rfl⟩
    · exact HeaderEq.refl page
    · exact HeaderEq.setRetAndErrNo _ _
  · rcases handleUnmap_cases step with ⟨-, rfl⟩ | ⟨-, -, fellThrough⟩
    · exact HeaderEq.refl page
    · exact (HeaderEq.setRetAndErrNo _ _).trans (doDma_headerEq fellThrough)
  · exact doDma_headerEq step
  · unfold doActionTransferEscapeData at step
    simp only at step
    split at step
    · cases step
      exact transferHandshake_headerEq outcome manager page
    · split at step
      · exact transferChunk_headerEq step
      · cases step
        exact HeaderEq.refl page
  · cases step
    exact HeaderEq.refl page

/-! ## Which requests are answered -/

theorem setRetAndErrNo_getInt_ret (page : ByteMem) (ret : Int32) (errno : ℤ) :
    (setRetAndErrNo page ret.toInt errno).getInt ActionCommon.ret = ret.toInt := by
  have upper := ret.toInt_lt
  have lower := ret.le_toInt
  simp only [setRetAndErrNo]
  rw [ByteMem.getInt_setInt_of_disjoint (by decide), ByteMem.getInt_setInt_same]
  exact Int.bmod_eq_of_le_mul_two (by norm_num [ActionCommon.ret, dataField]; omega)
    (by norm_num [ActionCommon.ret, dataField]; omega)

inductive ListenerNext where
  | completeHook
  | exit
  deriving DecidableEq

/-- The check that `_fh_fault_handler` makes on the result of its listener function. -/
def fhFaultHandlerNext : Option Handled → ListenerNext
  | some (ret, _, _) => if ret = 0 then .completeHook else .exit
  | none => .exit

def requestPage (action : FhAction) : ByteMem :=
  (ByteMem.zero.set FaultData.turn FhTurn.host.code).set FaultData.action action.code

def FaultOutcome.success : FaultOutcome where
  openRet := 0
  closeRet := 0
  mmapRet := 0
  unmmapRet := 0
  dmaRet := 0
  errno := 0
  malloc := some ByteMem.zero

def Manager.awaitingDma : Manager where
  ctx := { CtxStruct.zero with addrMap := fun _ => 0x1000, addrMapPfnMin := 1, addrMapPfnMax := 2 }
  transfer :=
    { ptr := some (ByteMem.zero.writeBytes 0 (PageChunk.toBytes ⟨1, 0, 16⟩))
      size := 24
      infoCtx := FhAction.dma.code
      chunk := 24 }
  calls := []

def dmaPage : ByteMem := (requestPage .dma).set ActionDma.pagesNr 1

end Acai
