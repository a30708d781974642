import Acai.Manager.Reply

/-!
# Requests and their own handlers

A request of the guest names one action, and its data area holds the structure of
this action. This file states what a request is meant to set off: the device calls
of its action, each with its arguments out of the fields of that structure
(`ownCalls`), and a transfer that stays as it is unless the action is one of the
two that work on it (`ServesOwn`).

The switch of `on_fault` keeps to this in every case but one. The case of
`FH_ACTION_UNMAP` has no `break`, and reads the data area a second time as the
request of a DMA. What happens then is up to a transfer that an earlier request has
left (`onFault_servesOwn_iff`). A request of either kind whose list of page frame
numbers leaves the mapped escape buffer is not served at all.
-/

namespace Acai

/-! ## What an action stands for -/

section Own

variable (outcome : FaultOutcome) (manager : Manager) (page : ByteMem)

def ownOpen : List HostCall :=
  [.openDevice (devicePath page) (page.get ActionOpenclose.flags) outcome.openRet.toInt]

def ownClose : List HostCall :=
  [.closeDevice (page.getInt ActionCommon.fd) outcome.closeRet.toInt]

def ownMmap : List HostCall :=
  if outcome.malloc = none then []
  else
    [.iocMmap (page.getInt ActionCommon.fd)
      { pid := manager.ctx.targetPid
        vmPgoff := page.get ActionMmapDevice.vmPgoff
        vmPageProt := page.get ActionMmapDevice.vmPageProt
        vmFlags := page.get ActionMmapDevice.vmFlags
        addr := pfnAddrs manager.ctx page ActionMmapDevice.pfn (page.get ActionMmapDevice.pfnSize)
        addrSize := page.get ActionMmapDevice.pfnSize } outcome.mmapRet.toInt]

def ownUnmap : List HostCall :=
  if outcome.malloc = none then []
  else
    [.iocUnmmap (page.getInt ActionCommon.fd)
      { pid := manager.ctx.targetPid
        addr := pfnAddrs manager.ctx page ActionUnmap.pfn (page.get ActionUnmap.pfnSize)
        addrSize := page.get ActionUnmap.pfnSize } outcome.unmmapRet.toInt]

/-- A DMA takes the list that was transferred for it. -/
def ownDma : List HostCall :=
  if manager.transfer.infoCtx = FhAction.dma.code then
    match translateChunks manager.ctx (page.get ActionDma.pagesNr) 0
        (manager.transfer.ptr.getD ByteMem.zero) with
    | none => []
    | some chunks =>
        [.iocDma (page.getInt ActionCommon.fd) (dmaRequest manager page chunks)
          outcome.dmaRet.toInt]
  else []

/-- The device calls of an action. -/
def ownCalls : Option FhAction → List HostCall
  | some .openDevice => ownOpen outcome page
  | some .closeDevice => ownClose outcome page
  | some .mmap => ownMmap outcome manager page
  | some .unmap => ownUnmap outcome manager page
  | some .dma => ownDma outcome manager page
  | _ => []

/-- The actions that work on the transfer. -/
def FhAction.Transfers (action : FhAction) : Prop :=
  action = .dma ∨ action = .transferEscapeData

/-- A request sets off the calls of its own action, and only an action of the transfer changes the
transfer or depends on its buffer. The result is `none` where the process dies. -/
structure ServesOwn (action : Option FhAction) (result : Option Manager) : Prop where
  calls : ∀ after, result = some after →
    after.calls = manager.calls ++ ownCalls outcome manager page action
  transfer : (∀ own, action = some own → ¬own.Transfers) →
    ∃ after, result = some after ∧ after.transfer = manager.transfer

variable {outcome manager page}

/-- A handler that always ends and leaves the transfer alone. -/
theorem ServesOwn.of_kept {action : Option FhAction} {after : Manager}
    (calls : after.calls = manager.calls ++ ownCalls outcome manager page action)
    (transfer : after.transfer = manager.transfer) :
    ServesOwn outcome manager page action (some after) where
  calls := by
    rintro _ ⟨⟩
    exact calls
  transfer := fun _ => ⟨after, rfl, transfer⟩

/-- A handler that makes no call at all. -/
theorem ServesOwn.of_same {action : Option FhAction}
    (noCalls : ownCalls outcome manager page action = []) :
    ServesOwn outcome manager page action (some manager) :=
  .of_kept (by rw [noCalls, List.append_nil]) rfl

/-- A handler of the transfer owes its calls only. -/
theorem ServesOwn.of_transfers {action : FhAction} {result : Option Manager}
    (transfers : action.Transfers)
    (calls : ∀ after, result = some after →
      after.calls = manager.calls ++ ownCalls outcome manager page (some action)) :
    ServesOwn outcome manager page (some action) result where
  calls := calls
  transfer := fun others => absurd transfers (others action rfl)

end Own

/-! ## The handlers -/

section Handlers

variable {outcome : FaultOutcome} {manager : Manager} {page : ByteMem}

/-- The manager that a handler leaves. -/
def managerOf (handled : Handled) : Manager := handled.2.1

/-- Handing the turn back keeps what the handler has done. -/
theorem onFault_manager (turn : page.get FaultData.turn = FhTurn.host.code) :
    (onFault outcome manager page).map managerOf =
      (handleAction outcome manager page).map managerOf := by
  rw [onFault, if_neg (not_not.mpr turn)]
  rcases handleAction outcome manager page with _ | ⟨ret, manager', page'⟩
  · rfl
  · dsimp only
    split <;> rfl

theorem servesOwn_handleEmptyMappings :
    ServesOwn outcome manager page (some .getEmptyMappings)
      (some (managerOf (handleEmptyMappings manager page))) := by
  have same : managerOf (handleEmptyMappings manager page) = manager := by
    rw [handleEmptyMappings]
    rfl
  rw [same]
  exact .of_same rfl

/-- A process that dies has not served a request that leaves the transfer alone. -/
theorem ServesOwn.not_of_died {action : FhAction} (other : ¬action.Transfers) :
    ¬ServesOwn outcome manager page (some action) none := by
  intro serves
  rcases serves.transfer (by rintro _ ⟨⟩; exact other) with ⟨after, ended, -⟩
  cases ended

theorem servesOwn_handleMmap_iff :
    ServesOwn outcome manager page (some .mmap)
        ((handleMmap outcome manager page).map managerOf) ↔
      outcome.malloc = none ∨ MmapListed page := by
  by_cases failed : outcome.malloc = none
  · rw [handleMmap_of_failed failed]
    exact iff_of_true (.of_same (if_pos failed)) (Or.inl failed)
  by_cases listed : MmapListed page
  · rw [handleMmap_of_listed failed listed]
    refine iff_of_true (.of_kept ?_ rfl) (Or.inr listed)
    rw [ownCalls, ownMmap, if_neg failed]
    rfl
  · rw [handleMmap_of_not_listed failed listed]
    exact iff_of_false (ServesOwn.not_of_died (by rintro (⟨⟨⟩⟩ | ⟨⟨⟩⟩)))
      (not_or.mpr ⟨failed, listed⟩)

theorem doDma_of_other (other : manager.transfer.infoCtx ≠ FhAction.dma.code) :
    doDma outcome manager page =
      some (-1, manager, setRetAndErrNo page (-1) outcome.errno.toInt) := by
  rw [doDma, if_pos other]

/-- A DMA is made for a transfer that was announced for it, and ends this transfer. -/
theorem doDma_cases {handled : Handled} (step : doDma outcome manager page = some handled) :
    (manager.transfer.infoCtx ≠ FhAction.dma.code ∧ managerOf handled = manager) ∨
    (manager.transfer.infoCtx = FhAction.dma.code ∧
      (managerOf handled).calls = manager.calls ++ ownDma outcome manager page ∧
      (managerOf handled).transfer = TransferState.initial) := by
  by_cases announced : manager.transfer.infoCtx = FhAction.dma.code
  · unfold doDma at step
    refine Or.inr ⟨announced, ?_⟩
    rw [if_neg (not_not.mpr announced)] at step
    rw [ownDma, if_pos announced]
    split at step
    · cases step
    · generalize translateChunks _ _ _ _ = translated at step ⊢
      rcases translated with _ | chunks
      · obtain rfl := Option.some.inj step
        exact ⟨(List.append_nil _).symm, rfl⟩
      · obtain rfl := Option.some.inj step
        exact ⟨rfl, rfl⟩
  · rw [doDma_of_other announced] at step
    obtain rfl := Option.some.inj step
    exact Or.inl ⟨announced, rfl⟩

theorem servesOwn_doDma :
    ServesOwn outcome manager page (some .dma)
      ((doDma outcome manager page).map managerOf) := by
  refine .of_transfers (Or.inl rfl) fun after ended => ?_
  rcases Option.map_eq_some_iff.1 ended with ⟨handled, step, rfl⟩
  rcases doDma_cases step with ⟨other, same⟩ | ⟨-, calls, -⟩
  · rw [same, ownCalls, ownDma, if_neg other, List.append_nil]
  · exact calls

theorem calls_doActionTransferEscapeData {handled : Handled}
    (step : doActionTransferEscapeData outcome manager page = some handled) :
    (managerOf handled).calls = manager.calls := by
  unfold doActionTransferEscapeData at step
  simp only at step
  split at step
  · cases step
    rw [transferHandshake]
    cases outcome.malloc <;> rfl
  · split at step
    · unfold transferChunk at step
      simp only at step
      split at step
      · cases step
        rfl
      · split at step
        · cases step
          rfl
        · split at step
          · cases step
            rfl
          · cases step
    · cases step
      rfl

theorem servesOwn_doActionTransferEscapeData :
    ServesOwn outcome manager page (some .transferEscapeData)
      ((doActionTransferEscapeData outcome manager page).map managerOf) := by
  refine .of_transfers (Or.inr rfl) fun after ended => ?_
  rcases Option.map_eq_some_iff.1 ended with ⟨handled, step, rfl⟩
  rw [calls_doActionTransferEscapeData step]
  exact (List.append_nil _).symm

/-- The request to unmap runs on into a DMA, which stops at once unless a transfer is announced
for one. -/
theorem servesOwn_handleUnmap_iff :
    ServesOwn outcome manager page (some .unmap)
        ((handleUnmap outcome manager page).map managerOf) ↔
      outcome.malloc = none ∨
        UnmapListed page ∧ manager.transfer.infoCtx ≠ FhAction.dma.code := by
  by_cases failed : outcome.malloc = none
  · rw [handleUnmap_of_failed failed]
    exact iff_of_true (.of_same (if_pos failed)) (Or.inl failed)
  by_cases listed : UnmapListed page
  swap
  · rw [handleUnmap_of_not_listed failed listed]
    exact iff_of_false (ServesOwn.not_of_died (by rintro (⟨⟨⟩⟩ | ⟨⟨⟩⟩)))
      (not_or.mpr ⟨failed, fun both => listed both.1⟩)
  rw [handleUnmap_of_listed failed listed]
  generalize unmapped_eq : manager.addCall _ = unmapped
  generalize setRetAndErrNo page _ _ = page'
  have transfer : unmapped.transfer = manager.transfer := by
    rw [← unmapped_eq]
    rfl
  constructor
  · intro serves
    refine Or.inr ⟨listed, fun announced => ?_⟩
    rcases serves.transfer (by rintro _ ⟨⟩ (⟨⟨⟩⟩ | ⟨⟨⟩⟩)) with ⟨after, ended, kept⟩
    rcases Option.map_eq_some_iff.1 ended with ⟨handled, step, rfl⟩
    rcases doDma_cases step with ⟨other, -⟩ | ⟨-, -, freed⟩
    · exact other (transfer ▸ announced)
    · rw [← kept, freed] at announced
      cases announced
  · rintro (failed' | ⟨-, other⟩)
    · exact absurd failed' failed
    rw [← transfer] at other
    rw [doDma_of_other other]
    refine .of_kept ?_ transfer
    rw [ownCalls, ownUnmap, if_neg failed, ← unmapped_eq]
    rfl

/-- Every request but those with a list of addresses sets off what its own action stands for. -/
theorem servesOwn_onFault (turn : page.get FaultData.turn = FhTurn.host.code)
    (notMmap : FhAction.ofCode (page.get FaultData.action) ≠ some .mmap)
    (notUnmap : FhAction.ofCode (page.get FaultData.action) ≠ some .unmap) :
    ServesOwn outcome manager page (FhAction.ofCode (page.get FaultData.action))
      ((onFault outcome manager page).map managerOf) := by
  rw [onFault_manager turn, handleAction]
  generalize FhAction.ofCode _ = action at notMmap notUnmap ⊢
  rcases action with _ | action
  · exact .of_same rfl
  cases action with
  | mmap => exact absurd rfl notMmap
  | unmap => exact absurd rfl notUnmap
  | dma => exact servesOwn_doDma
  | transferEscapeData => exact servesOwn_doActionTransferEscapeData
  | openDevice => exact .of_kept rfl rfl
  | closeDevice => exact .of_kept rfl rfl
  | getEmptyMappings => exact servesOwn_handleEmptyMappings
  -- the others make no call, and most of them are not even known to the switch
  | _ => exact .of_same rfl

/--
A request sets off what its own action stands for exactly unless it is a request to unmap that
meets a transfer announced for a DMA, or its list of page frame numbers kills the process.
-/
theorem onFault_servesOwn_iff (outcome : FaultOutcome) (manager : Manager) (page : ByteMem)
    (turn : page.get FaultData.turn = FhTurn.host.code) :
    ServesOwn outcome manager page (FhAction.ofCode (page.get FaultData.action))
        ((onFault outcome manager page).map managerOf) ↔
      (FhAction.ofCode (page.get FaultData.action) = some .unmap →
        outcome.malloc = none ∨
          UnmapListed page ∧ manager.transfer.infoCtx ≠ FhAction.dma.code) ∧
      (FhAction.ofCode (page.get FaultData.action) = some .mmap →
        outcome.malloc = none ∨ MmapListed page) := by
  by_cases isUnmap : FhAction.ofCode (page.get FaultData.action) = some .unmap
  · rw [onFault_manager turn, handleAction, isUnmap]
    simpa using servesOwn_handleUnmap_iff
  by_cases isMmap : FhAction.ofCode (page.get FaultData.action) = some .mmap
  · rw [onFault_manager turn, handleAction, isMmap]
    simpa using servesOwn_handleMmap_iff
  · exact iff_of_true (servesOwn_onFault turn isMmap isUnmap)
      ⟨fun same => absurd same isUnmap, fun same => absurd same isMmap⟩

end Handlers

theorem onFault_servesOwn_unmap :
    let idle := { Manager.awaitingDma with transfer := TransferState.initial }
    ServesOwn .success idle (requestPage .unmap) (FhAction.ofCode
      ((requestPage .unmap).get FaultData.action))
      ((onFault .success idle (requestPage .unmap)).map managerOf) :=
  (onFault_servesOwn_iff _ _ (requestPage .unmap) (by decide)).2
    ⟨fun _ => Or.inr (by decide), fun isMmap => absurd isMmap (by decide)⟩

/-- Behind a transfer for a DMA, the request unmaps, and then makes this DMA with an empty list. -/
theorem onFault_unmap_makes_dma :
    ((onFault .success .awaitingDma (requestPage .unmap)).map fun handled =>
        handled.2.1.calls.map fun call => call matches .iocDma ..) = some [false, true] ∧
    ¬ServesOwn .success .awaitingDma (requestPage .unmap)
      (FhAction.ofCode ((requestPage .unmap).get FaultData.action))
      ((onFault .success .awaitingDma (requestPage .unmap)).map managerOf) := by
  have made : (onFault .success .awaitingDma (requestPage .unmap)).map (fun handled =>
      handled.2.1.calls.map fun call => call matches .iocDma ..) = some [false, true] := by decide
  refine ⟨made, fun serves => ?_⟩
  rcases Option.map_eq_some_iff.1 made with ⟨handled, step, kinds⟩
  have own : (ownCalls .success .awaitingDma (requestPage .unmap)
      (FhAction.ofCode ((requestPage .unmap).get FaultData.action))).length = 1 := by decide
  have calls := serves.calls (managerOf handled) (by rw [step]; rfl)
  have two := congrArg List.length kinds
  rw [List.length_map] at two
  rw [managerOf] at calls
  rw [calls, List.length_append, own] at two
  cases two

end Acai
