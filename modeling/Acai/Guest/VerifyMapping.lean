import Acai.Guest.FileOps

/-!
# The search for pages without a mapping

When the driver is loaded it asks the host for the guest pages that the manager
has no mapping for, and takes those that are free out of use. The answer does not
fit on the escape page in general, so `fh_verify_mapping` asks in rounds: the
host fills in as many page frame numbers as both sides have room for and leaves a
cursor in `last_pfn`, from which the next round goes on.

The cursor 0 stands for the start in a request and for the end in a reply. A
round that is full has passed at least one page frame number, so the cursor of an
unfinished search is never 0, and the numbers of the rounds together are all
numbers without a mapping, each once and in order.
-/

namespace Acai

/-- What the kernel knows about its pages. -/
structure PageKernel where
  pfnValid : ℕ → Bool
  pagePoisoned : ℕ → Bool
  isFreeBuddyPage : ℕ → Bool

/-- The pages that the source counts: without mapping, of these taken out of use, and busy. -/
structure MappingFixup where
  noMapping : List ℕ
  offline : List ℕ
  busy : List ℕ
  deriving DecidableEq

namespace MappingFixup

def empty : MappingFixup := ⟨[], [], []⟩

/-- The body of the fix-up loop for one page frame number. A page that `soft_offline_page` fails
on is counted with the others. -/
def add (kernel : PageKernel) (fixup : MappingFixup) (pfn : ℕ) : MappingFixup :=
  let found := { fixup with noMapping := fixup.noMapping ++ [pfn] }
  if kernel.pfnValid pfn ∧ kernel.pagePoisoned pfn = false then
    if kernel.isFreeBuddyPage pfn then { found with offline := fixup.offline ++ [pfn] }
    else { found with busy := fixup.busy ++ [pfn] }
  else found

theorem add_noMapping (kernel : PageKernel) (fixup : MappingFixup) (pfn : ℕ) :
    (fixup.add kernel pfn).noMapping = fixup.noMapping ++ [pfn] := by
  simp only [add]
  split
  · split <;> rfl
  · rfl

end MappingFixup

/-- The fix-up loop over the page frame numbers of one round, unrolled `fuel` times. -/
def fixupLoop (kernel : PageKernel) : ℕ → ℕ → MappingFixup → Prog MappingFixup
  | 0, _, _ => .diverge
  | fuel + 1, index, fixup => do
      let pfnNr ← Prog.loadField ActionEmptyMappings.pfnNr
      if index < pfnNr then
        let pfn ← Prog.loadField (ActionEmptyMappings.pfn index)
        fixupLoop kernel fuel (index + 1) (fixup.add kernel pfn)
      else pure fixup

/-- The rounds of `fh_verify_mapping`, unrolled `rounds` times. -/
def verifyRounds (kernel : PageKernel) (fuel : ℕ) : ℕ → MappingFixup → Prog MappingFixup
  | 0, _ => .diverge
  | rounds + 1, fixup => do
      let ret ← fhDoFaulthook .getEmptyMappings
      if ret < 0 then pure fixup
      else
        let hostRet ← Prog.loadInt ActionCommon.ret
        if hostRet < 0 then pure fixup
        else
          let fixup' ← fixupLoop kernel fuel 0 fixup
          let lastPfn ← Prog.loadField ActionEmptyMappings.lastPfn
          if lastPfn ≠ 0 then verifyRounds kernel fuel rounds fixup' else pure fixup'

/-- The room for page frame numbers on a page of `escapeSize` bytes; the subtraction wraps. -/
def pfnMaxNrGuest (escapeSize : ℕ) : ℕ :=
  u64 (escapeSize + 2 ^ 64 - FaultData.data - ActionEmptyMappings.size) / 8

/-- `fh_verify_mapping`, with both loops unrolled `fuel` times. -/
def fhVerifyMapping (fuel : ℕ) (kernel : PageKernel) (escapeSize : ℕ) :
    Prog (ℤ × MappingFixup) := do
  Prog.acquire
  Prog.storeField ActionEmptyMappings.lastPfn 0
  Prog.storeField ActionEmptyMappings.pfnMaxNrGuest (pfnMaxNrGuest escapeSize)
  let fixup ← verifyRounds kernel fuel fuel .empty
  Prog.release
  pure (0, fixup)

structure InitArgs where
  /-- Whether `param_escape_page` names another page, which is then used as it is. -/
  paramEscapePage : Bool
  escapeSize : ℕ
  paramDoVerify : Bool
  kernel : PageKernel

/-- The start of `faulthook_init`: a page that no parameter names is cleared. -/
def resetEscapePage (args : InitArgs) : Prog Unit :=
  if args.paramEscapePage then pure ()
  else Prog.storeBytes 0 (List.replicate args.escapeSize 0)

/-- `faulthook_init`. The nonce counter, which nobody compares, goes on counting where the source
starts it again. -/
def faulthookInit (fuel : ℕ) (args : InitArgs) : Prog ℤ := do
  resetEscapePage args
  -- the first word of the page goes to the log
  let _ ← Prog.loadField FaultData.nonce
  Prog.acquire
  let _ ← fhDoFaulthook .setup
  Prog.release
  if args.paramDoVerify then
    let _ ← fhVerifyMapping fuel args.kernel args.escapeSize
    pure 0
  else pure 0

def faulthookCleanup (escapeSize : ℕ) : Prog ℤ := do
  Prog.acquire
  let _ ← fhDoFaulthook .teardown
  Prog.storeBytes 0 (List.replicate escapeSize 0)
  Prog.release
  pure 0

/-! ## One round of the host -/

def Unmapped (ctx : CtxStruct) (pfn : ℕ) : Prop := getAddrMapVaddrVerify ctx pfn = 0

instance (ctx : CtxStruct) : DecidablePred (Unmapped ctx) := fun pfn =>
  inferInstanceAs (Decidable (getAddrMapVaddrVerify ctx pfn = 0))

/-- The page frame numbers without a mapping among the `count` numbers from `start` on. -/
def unmappedFrom (ctx : CtxStruct) (start count : ℕ) : List ℕ :=
  (List.range' start count).filter (Unmapped ctx)

/-- The first `count` entries of the list on the page. -/
def listedPfns (page : ByteMem) (count : ℕ) : List ℕ :=
  (List.range count).map fun index => page.get (ActionEmptyMappings.pfn index)

theorem unmappedFrom_succ_of_unmapped {ctx : CtxStruct} {start count : ℕ}
    (unmapped : Unmapped ctx start) :
    unmappedFrom ctx start (count + 1) = start :: unmappedFrom ctx (start + 1) count := by
  simp [unmappedFrom, List.range'_succ, unmapped]

theorem unmappedFrom_succ_of_mapped {ctx : CtxStruct} {start count : ℕ}
    (mapped : ¬Unmapped ctx start) :
    unmappedFrom ctx start (count + 1) = unmappedFrom ctx (start + 1) count := by
  simp [unmappedFrom, List.range'_succ, mapped]

theorem unmappedFrom_add (ctx : CtxStruct) (start first second : ℕ) :
    unmappedFrom ctx start (first + second) =
      unmappedFrom ctx start first ++ unmappedFrom ctx (start + first) second := by
  have halves := @List.range'_append start first second 1
  simp only [Nat.one_mul] at halves
  rw [unmappedFrom, unmappedFrom, unmappedFrom, ← List.filter_append, halves, Nat.add_comm]

theorem disjoint_of_behind {field field' : Field} {bound : ℕ}
    (before : field.offset + field.width ≤ bound) (behind : bound ≤ field'.offset) :
    field.Disjoint field' :=
  Or.inl (by omega)

theorem pfn_disjoint {left right : ℕ} (distinct : left ≠ right) :
    (ActionEmptyMappings.pfn left).Disjoint (ActionEmptyMappings.pfn right) := by
  simp only [Field.Disjoint, ActionEmptyMappings.pfn, dataField]
  omega

theorem listedPfns_set {page : ByteMem} {found pfn : ℕ} (small : pfn < 2 ^ 64) :
    listedPfns (page.set (ActionEmptyMappings.pfn found) pfn) (found + 1) =
      listedPfns page found ++ [pfn] := by
  have stored : (page.set (ActionEmptyMappings.pfn found) pfn).get
      (ActionEmptyMappings.pfn found) = pfn := by
    rw [ByteMem.get_set_same]
    apply Nat.mod_eq_of_lt
    simpa [ActionEmptyMappings.pfn, dataField] using small
  have others : listedPfns (page.set (ActionEmptyMappings.pfn found) pfn) found =
      listedPfns page found := by
    apply List.map_congr_left
    intro index index_mem
    rw [List.mem_range] at index_mem
    exact ByteMem.get_set_of_disjoint (pfn_disjoint (by omega))
  rw [← others, listedPfns, List.range_succ, List.map_append, List.map_singleton, stored,
    listedPfns]

theorem listedPfns_congr {page page' : ByteMem} {count : ℕ}
    (same : ∀ index, page'.get (ActionEmptyMappings.pfn index) =
      page.get (ActionEmptyMappings.pfn index)) :
    listedPfns page' count = listedPfns page count := by
  simp only [listedPfns, same]

/-- The search after it has passed `passed` numbers from `pfn` on. -/
structure Searched (ctx : CtxStruct) (maxMappings count pfn found : ℕ) (page : ByteMem)
    (passed found' : ℕ) (page' : ByteMem) : Prop where
  passed_le : passed ≤ count
  progress : 0 < count → found < maxMappings → 0 < passed
  found_le : found' ≤ maxMappings
  found_eq : found' = found + (unmappedFrom ctx pfn passed).length
  full : passed < count → found' = maxMappings
  listed : listedPfns page' found' = listedPfns page found ++ unmappedFrom ctx pfn passed
  frame : ∀ address < FaultData.data + ActionEmptyMappings.size, page' address = page address

/-- The search does not write to the request. -/
theorem Searched.get_pfnMaxNrGuest {ctx : CtxStruct} {maxMappings count pfn found : ℕ}
    {page : ByteMem} {passed found' : ℕ} {page' : ByteMem}
    (searched : Searched ctx maxMappings count pfn found page passed found' page') :
    page'.get ActionEmptyMappings.pfnMaxNrGuest = page.get ActionEmptyMappings.pfnMaxNrGuest := by
  apply ByteMem.get_congr
  intro index index_lt
  apply searched.frame
  simp only [ActionEmptyMappings.pfnMaxNrGuest, ActionEmptyMappings.size, dataField] at index_lt ⊢
  omega

theorem emptyMappingsLoop_searched (ctx : CtxStruct) {maxMappings count pfn found : ℕ}
    (page : ByteMem) (small : pfn + count ≤ 2 ^ 64) (room : found ≤ maxMappings) :
    ∃ passed found' page',
      emptyMappingsLoop ctx maxMappings count pfn found page = (pfn + passed, found', page') ∧
        Searched ctx maxMappings count pfn found page passed found' page' := by
  induction count generalizing pfn found page with
  | zero =>
      refine ⟨0, found, page, rfl, le_refl 0, by omega, room, rfl, by omega, ?_, fun _ _ => rfl⟩
      simp [unmappedFrom]
  | succ count ih =>
      by_cases full : maxMappings ≤ found
      · refine ⟨0, found, page, by simp [emptyMappingsLoop, full], Nat.zero_le _, by omega, room,
          rfl, by omega, ?_, fun _ _ => rfl⟩
        simp [unmappedFrom]
      · by_cases unmapped : Unmapped ctx pfn
        · rcases ih (page.set (ActionEmptyMappings.pfn found) pfn)
            (show pfn + 1 + count ≤ 2 ^ 64 by omega) (show found + 1 ≤ maxMappings by omega) with
            ⟨passed, found', page', step, searched⟩
          refine ⟨passed + 1, found', page', ?_, ?_⟩
          · simp only [emptyMappingsLoop, if_neg full, if_pos (show _ = _ from unmapped), step]
            rw [show pfn + 1 + passed = pfn + (passed + 1) by omega]
          · have found_eq := searched.found_eq
            have passed_le := searched.passed_le
            refine ⟨by omega, by omega, searched.found_le, ?_, ?_, ?_, ?_⟩
            · rw [unmappedFrom_succ_of_unmapped unmapped, List.length_cons]
              omega
            · intro passed_lt
              exact searched.full (by omega)
            · rw [searched.listed, listedPfns_set (by omega),
                unmappedFrom_succ_of_unmapped unmapped]
              simp
            · intro address address_lt
              rw [searched.frame address address_lt]
              apply ByteMem.writeBytes_apply_of_lt
              simp only [ActionEmptyMappings.pfn, ActionEmptyMappings.size, dataField]
                at address_lt ⊢
              omega
        · rcases ih page (show pfn + 1 + count ≤ 2 ^ 64 by omega) room with
            ⟨passed, found', page', step, searched⟩
          have passed_le := searched.passed_le
          refine ⟨passed + 1, found', page', ?_, by omega, by omega, searched.found_le, ?_, ?_, ?_,
            searched.frame⟩
          · simp only [emptyMappingsLoop, if_neg full, if_neg (show ¬_ = _ from unmapped), step]
            rw [show pfn + 1 + passed = pfn + (passed + 1) by omega]
          · rw [unmappedFrom_succ_of_mapped unmapped]
            exact searched.found_eq
          · intro passed_lt
            exact searched.full (by omega)
          · rw [unmappedFrom_succ_of_mapped unmapped]
            exact searched.listed

def hostPfnMax : ℕ :=
  (getMappedEscapeBufferSize - FaultData.data - ActionEmptyMappings.size) / 8

/-- Where the host starts its search for the cursor of a request. -/
def searchStart (ctx : CtxStruct) (cursor : ℕ) : ℕ :=
  if cursor = 0 then ctx.addrMapPfnMin.toNat else cursor

/-- A round of the host from `start` on, which passed `passed` numbers. -/
structure Round (ctx : CtxStruct) (start : ℕ) (page : ByteMem) (passed : ℕ) (page' : ByteMem) :
    Prop where
  passed_le : passed ≤ ctx.addrMapPfnMax.toNat - start
  progress : start < ctx.addrMapPfnMax.toNat → 0 < passed
  ret : page'.getInt ActionCommon.ret = 0
  lastPfn : page'.get ActionEmptyMappings.lastPfn =
    if passed < ctx.addrMapPfnMax.toNat - start then start + passed else 0
  listed : listedPfns page' (page'.get ActionEmptyMappings.pfnNr) = unmappedFrom ctx start passed
  room : page'.get ActionEmptyMappings.pfnMaxNrGuest = page.get ActionEmptyMappings.pfnMaxNrGuest

/-- The fields that the host fills in behind the search. -/
def emptyMappingsReply (page : ByteMem) (next found : ℕ) : ByteMem :=
  setRetAndErrNoDirect
    ((page.set ActionEmptyMappings.lastPfn next).set ActionEmptyMappings.pfnNr found) 0

theorem get_emptyMappingsReply_of_le {page : ByteMem} {next found : ℕ} {field : Field}
    (behind : FaultData.data + ActionEmptyMappings.size ≤ field.offset) :
    (emptyMappingsReply page next found).get field = page.get field := by
  simp only [FaultData.data, ActionEmptyMappings.size] at behind
  simp only [emptyMappingsReply, setRetAndErrNoDirect]
  rw [ByteMem.get_setInt_of_disjoint (disjoint_of_behind (by decide) behind),
    ByteMem.get_setInt_of_disjoint (disjoint_of_behind (by decide) behind),
    ByteMem.get_setInt_of_disjoint (disjoint_of_behind (by decide) behind),
    ByteMem.get_set_of_disjoint (disjoint_of_behind (by decide) behind),
    ByteMem.get_set_of_disjoint (disjoint_of_behind (by decide) behind)]

theorem emptyMappingsReply_lastPfn (page : ByteMem) {next : ℕ} (found : ℕ) (small : next < 2 ^ 32) :
    (emptyMappingsReply page next found).get ActionEmptyMappings.lastPfn = next := by
  simp only [emptyMappingsReply, setRetAndErrNoDirect]
  rw [ByteMem.get_setInt_of_disjoint (by decide), ByteMem.get_setInt_of_disjoint (by decide),
    ByteMem.get_setInt_of_disjoint (by decide), ByteMem.get_set_of_disjoint (by decide),
    ByteMem.get_set_same]
  exact Nat.mod_eq_of_lt small

theorem emptyMappingsReply_pfnNr (page : ByteMem) (next : ℕ) {found : ℕ} (small : found < 2 ^ 64) :
    (emptyMappingsReply page next found).get ActionEmptyMappings.pfnNr = found := by
  simp only [emptyMappingsReply, setRetAndErrNoDirect]
  rw [ByteMem.get_setInt_of_disjoint (by decide), ByteMem.get_setInt_of_disjoint (by decide),
    ByteMem.get_setInt_of_disjoint (by decide), ByteMem.get_set_same]
  exact Nat.mod_eq_of_lt small

theorem emptyMappingsReply_pfnMaxNrGuest (page : ByteMem) (next found : ℕ) :
    (emptyMappingsReply page next found).get ActionEmptyMappings.pfnMaxNrGuest =
      page.get ActionEmptyMappings.pfnMaxNrGuest := by
  simp only [emptyMappingsReply, setRetAndErrNoDirect]
  rw [ByteMem.get_setInt_of_disjoint (by decide), ByteMem.get_setInt_of_disjoint (by decide),
    ByteMem.get_setInt_of_disjoint (by decide), ByteMem.get_set_of_disjoint (by decide),
    ByteMem.get_set_of_disjoint (by decide)]

theorem emptyMappingsReply_ret (page : ByteMem) (next found : ℕ) :
    (emptyMappingsReply page next found).getInt ActionCommon.ret = 0 := by
  simp only [emptyMappingsReply, setRetAndErrNoDirect]
  rw [ByteMem.getInt_setInt_of_disjoint (by decide), ByteMem.getInt_setInt_same]
  rfl

theorem handleEmptyMappings_eq {manager : Manager} {page page' : ByteMem} {pfn found : ℕ}
    (step : emptyMappingsLoop manager.ctx
        (min hostPfnMax (page.get ActionEmptyMappings.pfnMaxNrGuest))
        (manager.ctx.addrMapPfnMax.toNat -
          searchStart manager.ctx (page.get ActionEmptyMappings.lastPfn))
        (searchStart manager.ctx (page.get ActionEmptyMappings.lastPfn)) 0 page =
      (pfn, found, page')) :
    handleEmptyMappings manager page =
      (0, manager,
        emptyMappingsReply page'
          (if found = min hostPfnMax (page.get ActionEmptyMappings.pfnMaxNrGuest) ∧
              pfn < manager.ctx.addrMapPfnMax.toNat then pfn else 0) found) := by
  simp only [searchStart, hostPfnMax] at step ⊢
  simp only [handleEmptyMappings, step, emptyMappingsReply]
  congr

theorem searchStart_lt (ctx : CtxStruct) (page : ByteMem) :
    searchStart ctx (page.get ActionEmptyMappings.lastPfn) < 2 ^ 64 := by
  have pfnMin_lt := ctx.addrMapPfnMin.toNat_lt
  have cursor_lt : page.get ActionEmptyMappings.lastPfn < 2 ^ 32 :=
    page.get_lt ActionEmptyMappings.lastPfn
  simp only [searchStart]
  split <;> omega

/-- The handler replies with what its search has found. -/
theorem handleEmptyMappings_searched (manager : Manager) (page : ByteMem) :
    ∃ passed found page',
      handleEmptyMappings manager page =
        (0, manager,
          emptyMappingsReply page'
            (if found = min hostPfnMax (page.get ActionEmptyMappings.pfnMaxNrGuest) ∧
                searchStart manager.ctx (page.get ActionEmptyMappings.lastPfn) + passed <
                  manager.ctx.addrMapPfnMax.toNat
              then searchStart manager.ctx (page.get ActionEmptyMappings.lastPfn) + passed
              else 0) found) ∧
      Searched manager.ctx (min hostPfnMax (page.get ActionEmptyMappings.pfnMaxNrGuest))
        (manager.ctx.addrMapPfnMax.toNat -
          searchStart manager.ctx (page.get ActionEmptyMappings.lastPfn))
        (searchStart manager.ctx (page.get ActionEmptyMappings.lastPfn)) 0 page passed found
        page' := by
  have start_lt := searchStart_lt manager.ctx page
  have pfnMax_lt := manager.ctx.addrMapPfnMax.toNat_lt
  have small : searchStart manager.ctx (page.get ActionEmptyMappings.lastPfn) +
      (manager.ctx.addrMapPfnMax.toNat -
        searchStart manager.ctx (page.get ActionEmptyMappings.lastPfn)) ≤ 2 ^ 64 := by omega
  rcases emptyMappingsLoop_searched manager.ctx page small
    (Nat.zero_le (min hostPfnMax (page.get ActionEmptyMappings.pfnMaxNrGuest))) with
    ⟨passed, found, page', step, searched⟩
  exact ⟨passed, found, page', handleEmptyMappings_eq step, searched⟩

theorem handleEmptyMappings_round (manager : Manager) (page : ByteMem)
    (room : 0 < page.get ActionEmptyMappings.pfnMaxNrGuest)
    (small : manager.ctx.addrMapPfnMax.toNat < 2 ^ 32) :
    ∃ passed page', handleEmptyMappings manager page = (0, manager, page') ∧
      Round manager.ctx (searchStart manager.ctx (page.get ActionEmptyMappings.lastPfn)) page
        passed page' := by
  have start_lt := searchStart_lt manager.ctx page
  have hostRoom : 0 < hostPfnMax := by decide
  have hostMax_lt : hostPfnMax < 2 ^ 64 := by decide
  rcases handleEmptyMappings_searched manager page with ⟨passed, found, page', step, searched⟩
  refine ⟨passed, _, step, ?_⟩
  clear step
  generalize searchStart manager.ctx (page.get ActionEmptyMappings.lastPfn) = start at *
  have passed_le := searched.passed_le
  have found_le := searched.found_le
  have found_lt : found < 2 ^ 64 := by omega
  -- a search that ended early is full, so the cursor tells the two ends apart
  have cursor : (if found = min hostPfnMax (page.get ActionEmptyMappings.pfnMaxNrGuest) ∧
      start + passed < manager.ctx.addrMapPfnMax.toNat then start + passed else 0) =
      if passed < manager.ctx.addrMapPfnMax.toNat - start then start + passed else 0 := by
    by_cases early : passed < manager.ctx.addrMapPfnMax.toNat - start
    · rw [if_pos ⟨searched.full early, by omega⟩, if_pos early]
    · rw [if_neg (fun unfinished => early (by omega)), if_neg early]
  rw [cursor]
  constructor
  · exact passed_le
  · intro unfinished
    exact searched.progress (by omega) (by omega)
  · exact emptyMappingsReply_ret _ _ _
  · apply emptyMappingsReply_lastPfn
    split <;> omega
  · rw [emptyMappingsReply_pfnNr _ _ found_lt]
    have listed := searched.listed
    rw [show listedPfns page 0 = [] from rfl, List.nil_append] at listed
    rw [← listed]
    apply listedPfns_congr
    intro index
    apply get_emptyMappingsReply_of_le
    simp only [ActionEmptyMappings.pfn, ActionEmptyMappings.size, dataField]
    omega
  · rw [emptyMappingsReply_pfnMaxNrGuest]
    exact searched.get_pfnMaxNrGuest

/-! ## The rounds of the guest -/

section Rounds

variable {σ : Type} (answer : σ → ByteMem → σ × ByteMem) (kernel : PageKernel)

theorem run_fixupLoop {fuel index : ℕ} {machine : Machine σ}
    (index_le : index ≤ machine.page.get ActionEmptyMappings.pfnNr)
    (enough : machine.page.get ActionEmptyMappings.pfnNr - index < fuel) (fixup : MappingFixup) :
    ∃ fixup', (fixupLoop kernel fuel index fixup).run answer machine = (.done fixup', machine) ∧
      fixup'.noMapping = fixup.noMapping ++
        (listedPfns machine.page (machine.page.get ActionEmptyMappings.pfnNr)).drop index := by
  generalize count : machine.page.get ActionEmptyMappings.pfnNr = pfnNr at *
  induction fuel generalizing index fixup with
  | zero => omega
  | succ fuel ih =>
      rw [fixupLoop, Prog.run_bind_of_done _ (Prog.run_loadField _ _ machine), count]
      by_cases more : index < pfnNr
      · rw [if_pos more, Prog.run_bind_of_done _ (Prog.run_loadField _ _ machine)]
        rcases ih (fixup.add kernel (machine.page.get (ActionEmptyMappings.pfn index)))
          (show index + 1 ≤ pfnNr by omega) (by omega) with ⟨fixup', step, noMapping⟩
        refine ⟨fixup', step, ?_⟩
        have index_lt : index < (listedPfns machine.page pfnNr).length := by simpa [listedPfns]
        rw [noMapping, MappingFixup.add_noMapping, List.drop_eq_getElem_cons index_lt]
        simp [listedPfns]
      · rw [if_neg more]
        refine ⟨fixup, rfl, ?_⟩
        rw [List.drop_eq_nil_of_le (by simp [listedPfns]; omega), List.append_nil]

/-- A round of the guest: the escape, with the host's reply on the page. -/
theorem run_fhDoFaulthook_emptyMappings {machine : Machine Host}
    (serving : machine.peer.serving = true)
    (room : 0 < machine.page.get ActionEmptyMappings.pfnMaxNrGuest)
    (small : machine.peer.manager.ctx.addrMapPfnMax.toNat < 2 ^ 32) :
    ∃ passed machine',
      (fhDoFaulthook .getEmptyMappings).run Host.onEscape machine = (.done 0, machine') ∧
        Round machine.peer.manager.ctx
          (searchStart machine.peer.manager.ctx (machine.page.get ActionEmptyMappings.lastPfn))
          machine.page passed machine'.page ∧
        machine'.peer.serving = true ∧ machine'.peer.manager = machine.peer.manager := by
  have lastPfn : (escapePage .getEmptyMappings (machine.counter + 1) machine.page).get
      ActionEmptyMappings.lastPfn = machine.page.get ActionEmptyMappings.lastPfn :=
    get_escapePage (by decide)
  have guestMax : (escapePage .getEmptyMappings (machine.counter + 1) machine.page).get
      ActionEmptyMappings.pfnMaxNrGuest = machine.page.get ActionEmptyMappings.pfnMaxNrGuest :=
    get_escapePage (by decide)
  rcases handleEmptyMappings_round machine.peer.manager
    (escapePage .getEmptyMappings (machine.counter + 1) machine.page) (by rwa [guestMax]) small with
    ⟨passed, page', step, round⟩
  have handled : handleAction machine.peer.outcome machine.peer.manager
      (escapePage .getEmptyMappings (machine.counter + 1) machine.page) =
        some (0, machine.peer.manager, page') := by
    simp only [handleAction, escapePage_action, FhAction.ofCode_code, step]
  refine ⟨passed, _, run_fhDoFaulthook_of_handled serving handled (le_refl 0), ?_, serving, rfl⟩
  rw [lastPfn] at round
  have turned : ∀ field : Field, FaultData.data ≤ field.offset →
      (page'.set FaultData.turn FhTurn.guest.code).get field = page'.get field := by
    intro field inData
    exact ByteMem.get_set_of_disjoint (disjoint_of_behind (by decide) inData)
  constructor
  · exact round.passed_le
  · exact round.progress
  · rw [ByteMem.getInt, turned _ (by decide), ← ByteMem.getInt]
    exact round.ret
  · rw [turned _ (by decide)]
    exact round.lastPfn
  · rw [turned _ (by decide), ← round.listed]
    apply listedPfns_congr
    intro index
    exact turned _ (by simp [ActionEmptyMappings.pfn, dataField])
  · rw [turned _ (by decide), round.room, guestMax]

theorem Round.pfnNr_le {ctx : CtxStruct} {start passed : ℕ} {page page' : ByteMem}
    (round : Round ctx start page passed page') :
    page'.get ActionEmptyMappings.pfnNr ≤ ctx.addrMapPfnMax.toNat := by
  have listed := congrArg List.length round.listed
  have filtered := List.length_filter_le (Unmapped ctx) (List.range' start passed)
  have passed_le := round.passed_le
  simp only [listedPfns, List.length_map, List.length_range] at listed
  rw [← unmappedFrom, List.length_range'] at filtered
  omega

/-- The rounds find the numbers from the cursor of the request on. The induction is on what is
left of the map: a round that does not finish the search has passed at least one number, so the
cursor that it leaves is not 0. -/
theorem run_verifyRounds {rounds fuel : ℕ} {machine : Machine Host}
    (serving : machine.peer.serving = true)
    (room : 0 < machine.page.get ActionEmptyMappings.pfnMaxNrGuest)
    (small : machine.peer.manager.ctx.addrMapPfnMax.toNat < 2 ^ 32)
    (enoughRounds : machine.peer.manager.ctx.addrMapPfnMax.toNat -
      searchStart machine.peer.manager.ctx (machine.page.get ActionEmptyMappings.lastPfn) < rounds)
    (enoughFuel : machine.peer.manager.ctx.addrMapPfnMax.toNat < fuel) (fixup : MappingFixup) :
    ∃ fixup' machine',
      (verifyRounds kernel fuel rounds fixup).run Host.onEscape machine =
        (.done fixup', machine') ∧
      fixup'.noMapping = fixup.noMapping ++ unmappedFrom machine.peer.manager.ctx
        (searchStart machine.peer.manager.ctx (machine.page.get ActionEmptyMappings.lastPfn))
        (machine.peer.manager.ctx.addrMapPfnMax.toNat -
          searchStart machine.peer.manager.ctx
            (machine.page.get ActionEmptyMappings.lastPfn)) := by
  induction rounds generalizing machine fixup with
  | zero => omega
  | succ rounds ih =>
      rcases run_fhDoFaulthook_emptyMappings serving room small with
        ⟨passed, replied, escaped, round, serving', manager⟩
      have pfnNr_le := round.pfnNr_le
      rcases run_fixupLoop Host.onEscape kernel (Nat.zero_le (replied.page.get
        ActionEmptyMappings.pfnNr)) (show _ - 0 < fuel by omega) fixup with
        ⟨fixup', fixed, noMapping⟩
      rw [round.listed, List.drop_zero] at noMapping
      rw [verifyRounds, Prog.run_bind_of_done _ escaped, if_neg (by decide),
        Prog.run_bind_of_done _ (Prog.run_loadInt _ _ replied), round.ret, if_neg (by decide),
        Prog.run_bind_of_done _ fixed, Prog.run_bind_of_done _ (Prog.run_loadField _ _ replied),
        round.lastPfn]
      generalize searchStart machine.peer.manager.ctx
        (machine.page.get ActionEmptyMappings.lastPfn) = start at *
      have passed_le := round.passed_le
      by_cases unfinished : passed < machine.peer.manager.ctx.addrMapPfnMax.toNat - start
      · have progress := round.progress (by omega)
        have cursor : replied.page.get ActionEmptyMappings.lastPfn = start + passed := by
          rw [round.lastPfn, if_pos unfinished]
        have next : searchStart replied.peer.manager.ctx
            (replied.page.get ActionEmptyMappings.lastPfn) = start + passed := by
          rw [cursor, searchStart, if_neg (by omega)]
        have room' : 0 < replied.page.get ActionEmptyMappings.pfnMaxNrGuest := by
          rw [round.room]
          exact room
        rw [if_pos unfinished, if_pos (show start + passed ≠ 0 by omega)]
        rw [← manager] at small enoughFuel
        rcases ih serving' room' small (by rw [next, manager]; omega) enoughFuel fixup' with
          ⟨fixup'', final, run, rest⟩
        refine ⟨fixup'', final, run, ?_⟩
        rw [rest, noMapping, next, manager, List.append_assoc, ← unmappedFrom_add,
          show passed + (machine.peer.manager.ctx.addrMapPfnMax.toNat - (start + passed)) =
            machine.peer.manager.ctx.addrMapPfnMax.toNat - start by omega]
      · rw [if_neg unfinished, if_neg (by decide)]
        refine ⟨fixup', replied, rfl, ?_⟩
        rw [noMapping, show passed = machine.peer.manager.ctx.addrMapPfnMax.toNat - start by omega]

end Rounds

/-- The room that both sides have for the page frame numbers of one round. -/
def roundCapacity (escapeSize : ℕ) : ℕ := min hostPfnMax (pfnMaxNrGuest escapeSize)

/-- The page frame numbers of the map whose entry is 0. -/
def CtxStruct.emptyPfns (ctx : CtxStruct) : List ℕ :=
  ctx.pfns.filter fun pfn => ctx.addrMap (pfn - ctx.addrMapPfnMin.toNat) = 0

theorem unmappedFrom_eq_emptyPfns (ctx : CtxStruct) :
    unmappedFrom ctx ctx.addrMapPfnMin.toNat
      (ctx.addrMapPfnMax.toNat - ctx.addrMapPfnMin.toNat) = ctx.emptyPfns := by
  apply List.filter_congr
  intro pfn pfn_mem
  rw [List.mem_range'_1] at pfn_mem
  rw [decide_eq_decide, Unmapped, getAddrMapVaddrVerify, if_pos (by omega)]

theorem pfnMaxNrGuest_lt (escapeSize : ℕ) : pfnMaxNrGuest escapeSize < 2 ^ 64 := by
  have wrapped : u64 (escapeSize + 2 ^ 64 - FaultData.data - ActionEmptyMappings.size) < 2 ^ 64 :=
    Nat.mod_lt _ (by decide)
  simp only [pfnMaxNrGuest]
  omega

def askingEmptyMappings (escapeSize : ℕ) (machine : Machine Host) : Machine Host :=
  { machine with
    page := (machine.page.set ActionEmptyMappings.lastPfn 0).set
      ActionEmptyMappings.pfnMaxNrGuest (pfnMaxNrGuest escapeSize)
    locked := true }

theorem askingEmptyMappings_lastPfn (escapeSize : ℕ) (machine : Machine Host) :
    (askingEmptyMappings escapeSize machine).page.get ActionEmptyMappings.lastPfn = 0 := by
  simp only [askingEmptyMappings]
  rw [ByteMem.get_set_of_disjoint (by decide), ByteMem.get_set_same]
  rfl

theorem askingEmptyMappings_pfnMaxNrGuest (escapeSize : ℕ) (machine : Machine Host) :
    (askingEmptyMappings escapeSize machine).page.get ActionEmptyMappings.pfnMaxNrGuest =
      pfnMaxNrGuest escapeSize := by
  simp only [askingEmptyMappings]
  rw [ByteMem.get_set_same]
  exact Nat.mod_eq_of_lt (pfnMaxNrGuest_lt escapeSize)

theorem run_fhVerifyMapping {fuel escapeSize : ℕ} {kernel : PageKernel}
    {machine final : Machine Host} {fixup : MappingFixup} (free : machine.locked = false)
    (rounds : (verifyRounds kernel fuel fuel .empty).run Host.onEscape
      (askingEmptyMappings escapeSize machine) = (.done fixup, final)) :
    (fhVerifyMapping fuel kernel escapeSize).run Host.onEscape machine =
      (.done (0, fixup), { final with locked := false }) := by
  simp only [askingEmptyMappings] at rounds
  simp only [fhVerifyMapping, Prog.run_bind, Prog.run_acquire_of_free _ free, Prog.andThen_done,
    Prog.run_storeField, rounds, Prog.run_release, Prog.run_pure]

/--
`fh_verify_mapping` ends, given enough turns of its loops, and the page frame
numbers that it received are those whose map entry is 0, in increasing order.
-/
theorem fhVerifyMapping_receives_emptyPfns (kernel : PageKernel) (escapeSize : ℕ)
    (machine : Machine Host) (free : machine.locked = false)
    (serving : machine.peer.serving = true)
    (small : machine.peer.manager.ctx.addrMapPfnMax.toNat < 2 ^ 32)
    (capacity : 1 ≤ roundCapacity escapeSize) :
    ∃ enough, ∀ fuel ≥ enough, ∃ fixup final,
      (fhVerifyMapping fuel kernel escapeSize).run Host.onEscape machine =
        (.done (0, fixup), final) ∧
      fixup.noMapping = machine.peer.manager.ctx.emptyPfns ∧
      fixup.noMapping.Pairwise (· < ·) := by
  refine ⟨machine.peer.manager.ctx.addrMapPfnMax.toNat + 1, ?_⟩
  intro fuel enough
  have room : 0 < (askingEmptyMappings escapeSize machine).page.get
      ActionEmptyMappings.pfnMaxNrGuest := by
    rw [askingEmptyMappings_pfnMaxNrGuest]
    exact lt_of_lt_of_le capacity (min_le_right _ _)
  have start : searchStart machine.peer.manager.ctx
      ((askingEmptyMappings escapeSize machine).page.get ActionEmptyMappings.lastPfn) =
        machine.peer.manager.ctx.addrMapPfnMin.toNat := by
    rw [askingEmptyMappings_lastPfn, searchStart, if_pos rfl]
  rcases @run_verifyRounds kernel fuel fuel (askingEmptyMappings escapeSize machine) serving room
    small (lt_of_le_of_lt (Nat.sub_le _ _) enough) enough .empty with
    ⟨fixup, final, rounds, noMapping⟩
  have received : fixup.noMapping = machine.peer.manager.ctx.emptyPfns := by
    rw [noMapping, ← unmappedFrom_eq_emptyPfns, ← start]
    rfl
  refine ⟨fixup, _, run_fhVerifyMapping free rounds, received, ?_⟩
  rw [received]
  exact (List.pairwise_lt_range' 1 (by decide)).filter _

def gappedMachine : Machine Host :=
  { Machine.cleared with
    peer :=
      { Machine.cleared.peer with
        manager :=
          { Manager.awaitingDma with
            ctx :=
              { CtxStruct.zero with
                addrMap := fun index => if index % 2 = 0 then 0 else 0x1000
                addrMapPfnMin := 1
                addrMapPfnMax := 6 } } } }

def freePages : PageKernel := ⟨fun _ => true, fun _ => false, fun _ => true⟩

/-- A page of 76 bytes has room for one number a round. -/
theorem fhVerifyMapping_receives_gaps :
    roundCapacity 76 = 1 ∧ gappedMachine.peer.manager.ctx.emptyPfns = [1, 3, 5] ∧
      ∃ enough, ∀ fuel ≥ enough, ∃ fixup final,
        (fhVerifyMapping fuel freePages 76).run Host.onEscape gappedMachine =
          (.done (0, fixup), final) ∧
        fixup.noMapping = gappedMachine.peer.manager.ctx.emptyPfns ∧
        fixup.noMapping.Pairwise (· < ·) :=
  ⟨by decide, by decide, fhVerifyMapping_receives_emptyPfns freePages 76 gappedMachine rfl rfl
    (by decide) (by decide)⟩

end Acai
