import Acai.Gpu.Fixup
import Acai.Lib.Runs
import Acai.Lib.WordRange

/-!
# The pages that a mapping changes

Before `fops_ioctl_do_map` remaps the target pages, it makes them writable and
executable: a contiguous list takes one call of `protect_pid` for the whole range, and
any other list takes one call for each page. Every call is made with the size of the
whole list, so that the calls for a list with gaps reach beyond its pages
(`protectedAddrs_eq_listed_iff`).

After that, the flags of the area in which a page has been found are replaced. An area
is what the kernel makes of its address space, and may hold other pages too. These keep
their flags only if the last of the areas brings the ones they have
(`changesOnlyListed_iff`).
-/

namespace Acai

namespace MapCall

variable {Mm : Type}

/-! ## Flags of pages -/

section Flags

variable (call : MapCall Mm)

/-- The addresses in the listed pages. -/
def listed : Set UInt64 :=
  { addr | ∃ index < call.request.pagesNum.toNat,
      addr ∈ wordRange (call.targetAddrs index) pageSizeWord }

/-- The union of the ranges that are passed to `protect_pid`. -/
def protectedAddrs : Set UInt64 :=
  { addr | ∃ mm start len prot, .mprotect mm start len prot ∈ call.fopsIoctlDoMap.acts ∧
      addr ∈ wordRange start len }

/-- The area that is found for a listed page holds the address. -/
def InArea (found addr : UInt64) : Prop :=
  ∃ index < call.request.pagesNum.toNat,
    call.targetAddrs index = found ∧ VmArea.Holds (call.targetVmaAgain index) addr

instance (found addr : UInt64) : Decidable (call.InArea found addr) :=
  inferInstanceAs (Decidable (∃ index, index < call.request.pagesNum.toNat ∧ _))

/-- The flags of an address in one address space, before an act and after it. -/
def actFlags [DecidableEq Mm] (target : Mm) (addr flags : UInt64) : MapAct Mm → UInt64
  | .mprotect mm start len prot =>
      if mm = target ∧ addr ∈ wordRange start len then flags &&& ~~~protAll ||| prot else flags
  | .setVma mm found fields =>
      if mm = target ∧ call.InArea found addr then fields.vmFlags else flags
  | _ => flags

/-- What the call makes of the flags of an address. -/
def flagsAfter [DecidableEq Mm] (target : Mm) (addr flags : UInt64) : UInt64 :=
  Runs.after (call.actFlags target addr) flags call.fopsIoctlDoMap.acts

/-- The ranges that are protected are the listed pages, and no other address of the target gets
other flags than it has before the call. -/
structure ChangesOnlyListed [DecidableEq Mm] (before : UInt64 → UInt64) : Prop where
  ranges : call.protectedAddrs = call.listed
  others : ∀ target, call.targetMm = some target → ∀ addr, addr ∉ call.listed →
    call.flagsAfter target addr (before addr) = before addr

end Flags

/-! ## The acts of a call -/

section Acts

variable {call : MapCall Mm} {target mm : Mm} {index : ℕ} {vars : MapVars}

/-- The area takes over the flags of the source. -/
def replacedFields (call : MapCall Mm) (index : ℕ) : VmAreaFields :=
  { call.srcFields index with vmFlags := (call.srcFields index).vmFlags ||| sharedFlags }

/-- An address that is not listed has the flags already that the last area brings in which it
lies. -/
def AreasKeep (call : MapCall Mm) (before : UInt64 → UInt64) : Prop :=
  ∀ addr, addr ∉ call.listed → ∀ index < call.request.pagesNum.toNat,
    call.InArea (call.targetAddrs index) addr →
    (∀ later < call.request.pagesNum.toNat, index < later →
      ¬call.InArea (call.targetAddrs later) addr) →
    before addr = (call.replacedFields index).vmFlags

/-- The address space that `protect_pid` changes. -/
def changedMm (call : MapCall Mm) (index : ℕ) : Option Mm :=
  if call.request.targetPid = call.pid then some call.mm else call.protectMm index

theorem exists_changedMm (protects : call.Protects index) :
    ∃ mm, call.changedMm index = some mm := by
  rw [changedMm]
  split
  · exact ⟨_, rfl⟩
  · rename_i other
    exact Option.ne_none_iff_exists'.mp (protects.1.resolve_left other)

theorem mprotect_mem_protectPid_iff {addr len prot start len' prot' : UInt64} :
    .mprotect mm start len' prot' ∈ (call.protectPid index addr len prot).acts ↔
      call.changedMm index = some mm ∧ start = addr ∧ len' = len ∧ prot' = prot := by
  rw [protectPid, changedMm, protectMm]
  split
  · simp [Routine.mem_acts_bind_iff, eq_comm]
  · rcases call.getMm (call.protectTask index) with _ | other
    · simp
    · simp [Routine.mem_acts_bind_iff, eq_comm]

theorem mprotect_mem_splitTarget_iff {start len prot : UInt64} :
    .mprotect mm start len prot ∈ (call.splitTarget index vars).acts ↔
      (call.targetContiguous = false ∨ vars.targetVmaSplit = false) ∧
      call.changedMm index = some mm ∧
      start = call.targetAddrs index ∧ len = call.targetSize ∧ prot = protAll := by
  rw [splitTarget, ← mprotect_mem_protectPid_iff]
  split
  · rename_i splits
    simp [Routine.mem_acts_bind_iff, splits]
  · rename_i splits
    simp [splits]

/-- An iteration protects in its call of `protect_pid` only. -/
theorem mprotect_mem_mapPage_iff {start len prot : UInt64} :
    .mprotect mm start len prot ∈ (call.mapPage target index vars).acts ↔
      call.Finds index ∧ (call.targetContiguous = false ∨ vars.targetVmaSplit = false) ∧
      call.changedMm index = some mm ∧
      start = call.targetAddrs index ∧ len = call.targetSize ∧ prot = protAll := by
  simp [mapPage, Routine.mem_acts_bind_iff, mprotect_mem_splitTarget_iff, lookupTarget,
    Routine.result_bind_ok_iff, remapPage, resolveVm, Finds]

theorem setVma_notMem_splitTarget {found : UInt64} {fields : VmAreaFields} :
    .setVma mm found fields ∉ (call.splitTarget index vars).acts := by
  rw [splitTarget]
  split
  · rw [protectPid]
    split
    · simp [Routine.mem_acts_bind_iff]
    · rcases call.getMm (call.protectTask index) with _ | other <;>
        simp [Routine.mem_acts_bind_iff]
  · simp

end Acts

/-! ## A call that succeeds -/

section Success

variable {call : MapCall Mm} {ret : ℤ} {mm : Mm}

theorem loop_of_succeeds (succeeds : call.fopsIoctlDoMap.result = .ok ret) :
    ∃ target entries vars, call.checkRequest.result = .ok (target, entries) ∧
      call.srcVma.isNone = false ∧ call.replyCopied = true ∧
      (Routine.loop (call.mapPage target) ⟨false, 0⟩ call.request.pagesNum.toNat).result =
        .ok vars := by
  simp only [fopsIoctlDoMap, mapPages, Routine.result_bind_ok_iff, Routine.result_act_ok_iff,
    Routine.result_leaveIf_ok_iff, Bool.not_eq_true, Bool.not_eq_false] at succeeds
  rcases succeeds with ⟨checked, checks, -, -, -, source, -, -, vars, loops, -, replied, -⟩
  exact ⟨checked.1, checked.2, vars, checks, source, replied, loops⟩

/-- A call that succeeds has gone through all the pages of the target. -/
theorem passes_of_succeeds (succeeds : call.fopsIoctlDoMap.result = .ok ret) :
    ∃ target, call.targetMm = some target ∧ 0 < call.request.pagesNum.toNat ∧
      ∀ index < call.request.pagesNum.toNat, call.Passes index := by
  rcases loop_of_succeeds succeeds with ⟨target, entries, vars, checks, -, -, loops⟩
  rcases result_checkRequest_ok_iff.mp checks with ⟨admits, found, -⟩
  refine ⟨target, found, Nat.pos_of_ne_zero fun none => admits.2.2.1.2.1 ?_,
    reached_iff.mp ⟨vars, loops⟩⟩
  exact UInt64.toNat_inj.mp none

/-- The acts of the iterations, apart from the locks and the reply around them. -/
theorem mem_acts_iff {target : Mm} (succeeds : call.fopsIoctlDoMap.result = .ok ret)
    (found : call.targetMm = some target) {act : MapAct Mm} (notLock : ∀ mm, act ≠ .readLock mm)
    (notUnlock : ∀ mm, act ≠ .readUnlock mm) (notReply : ∀ request, act ≠ .copyToUser request) :
    act ∈ call.fopsIoctlDoMap.acts ↔
      ∃ index < call.request.pagesNum.toNat, ∃ vars,
        (Routine.loop (call.mapPage target) ⟨false, 0⟩ index).result = .ok vars ∧
          act ∈ (call.mapPage target index vars).acts := by
  rcases loop_of_succeeds succeeds with ⟨_, entries, last, checks, source, replied, loops⟩
  rcases result_checkRequest_ok_iff.mp checks with ⟨-, found', -⟩
  obtain rfl := Option.some.inj (found'.symm.trans found)
  have silent : call.checkRequest.acts = [] := silent_checkRequest
  simp [fopsIoctlDoMap, mapPages, Routine.mem_acts_bind_iff, silent, checks, source,
    Routine.mem_acts_loop_iff, notLock, notUnlock, notReply]

theorem mprotect_mem_acts_iff (succeeds : call.fopsIoctlDoMap.result = .ok ret)
    {start len prot : UInt64} :
    .mprotect mm start len prot ∈ call.fopsIoctlDoMap.acts ↔
      ∃ index < call.request.pagesNum.toNat, call.Splits index ∧
        call.changedMm index = some mm ∧
        start = call.targetAddrs index ∧ len = call.targetSize ∧ prot = protAll := by
  rcases passes_of_succeeds succeeds with ⟨target, found, -, passes⟩
  rw [mem_acts_iff succeeds found (by simp) (by simp) (by simp)]
  refine exists_congr fun index => and_congr_right fun index_lt => ?_
  rcases reached_iff.mpr fun earlier before => passes earlier (before.trans index_lt)
    with ⟨vars, reached⟩
  constructor
  · rintro ⟨vars', reached', made⟩
    rw [mprotect_mem_mapPage_iff, split_of_reached reached'] at made
    exact made.2
  · intro made
    refine ⟨vars, reached, ?_⟩
    rw [mprotect_mem_mapPage_iff, split_of_reached reached]
    exact ⟨(passes index index_lt).finds, made⟩

/-- The ranges that are protected, each with the size of the whole list. -/
theorem mem_protectedAddrs_iff (succeeds : call.fopsIoctlDoMap.result = .ok ret)
    {addr : UInt64} :
    addr ∈ call.protectedAddrs ↔ ∃ index < call.request.pagesNum.toNat, call.Splits index ∧
      addr ∈ wordRange (call.targetAddrs index) call.targetSize := by
  simp only [protectedAddrs, Set.mem_ofPred_eq, mprotect_mem_acts_iff succeeds]
  constructor
  · rintro ⟨mm, _, _, _, ⟨index, index_lt, splits, -, rfl, rfl, -⟩, inside⟩
    exact ⟨index, index_lt, splits, inside⟩
  · rintro ⟨index, index_lt, splits, inside⟩
    rcases passes_of_succeeds succeeds with ⟨-, -, -, passes⟩
    rcases exists_changedMm ((passes index index_lt).protects splits) with ⟨mm, changes⟩
    exact ⟨mm, _, _, _, ⟨index, index_lt, splits, changes, rfl, rfl, rfl⟩, inside⟩

end Success

/-! ## The ranges and the list -/

theorem pagesContinuous_iff {pageAddrs : ℕ → UInt64} {num : ℕ} :
    pagesContinuous pageAddrs num = true ↔
      ∀ index, index + 1 < num → pageAddrs index + pageSizeWord = pageAddrs (index + 1) := by
  fun_induction pagesContinuous pageAddrs num with
  | case1 => simp
  | case2 => simp
  | case3 num ih =>
      rw [Bool.and_eq_true, ih, beq_iff_eq]
      constructor
      · rintro ⟨earlier, last⟩ index index_lt
        rcases Nat.lt_succ_iff_lt_or_eq.mp index_lt with before | same
        · exact earlier index before
        · obtain rfl : index = num := by omega
          exact last
      · intro all
        exact ⟨fun index before => all index (Nat.lt_succ_of_lt before),
          all num (Nat.lt_succ_self _)⟩

section Ranges

variable {call : MapCall Mm}

theorem targetSize_eq :
    call.targetSize = UInt64.ofNat (pageSize * call.request.pagesNum.toNat) := by
  rw [targetSize, UInt64.ofNat_mul, UInt64.ofNat_toNat, UInt64.mul_comm]
  rfl

/-- The pages of a contiguous list are blocks in a row. -/
theorem targetAddrs_of_contiguous (contiguous : call.targetContiguous = true) {index : ℕ}
    (index_lt : index < call.request.pagesNum.toNat) :
    call.targetAddrs index = WordRange.block pageSize (call.targetAddrs 0) index := by
  induction index with
  | zero => rw [WordRange.block_zero]
  | succ index ih =>
      rw [WordRange.block_succ, ← ih (Nat.lt_of_succ_lt index_lt)]
      exact (pagesContinuous_iff.mp contiguous index index_lt).symm

/-- A list with a page in every block names every address. -/
theorem listed_eq_univ {first : UInt64}
    (all : ∀ index < 2 ^ 52, ∃ number < call.request.pagesNum.toNat,
      call.targetAddrs number = WordRange.block pageSize first index) :
    call.listed = Set.univ := by
  refine Set.eq_univ_of_forall fun addr => ?_
  have distance_lt := (addr - first).toNat_lt
  rcases all ((addr - first).toNat / pageSize) (Nat.div_lt_of_lt_mul distance_lt)
    with ⟨number, number_lt, here⟩
  exact ⟨number, number_lt, here ▸ WordRange.mem_block (by decide) (by decide) first addr⟩

/-- The ranges that are protected are the listed pages: the list is contiguous and does not go
around the address space, or, if it is not, the size of the list happens to be that of one page,
or every address is listed anyway. -/
def RangesFit (call : MapCall Mm) : Prop :=
  if call.targetContiguous = true then call.request.pagesNum.toNat < 2 ^ 52
  else call.targetSize = pageSizeWord ∨ call.targetSize ≠ 0 ∧ call.listed = Set.univ

section Contiguous

variable {ret : ℤ} (succeeds : call.fopsIoctlDoMap.result = .ok ret)
  (contiguous : call.targetContiguous = true)

include succeeds contiguous

theorem protectedAddrs_of_contiguous :
    call.protectedAddrs = wordRange (call.targetAddrs 0) call.targetSize := by
  rcases passes_of_succeeds succeeds with ⟨-, -, some_page, -⟩
  ext addr
  rw [mem_protectedAddrs_iff succeeds]
  constructor
  · rintro ⟨index, -, splits, inside⟩
    obtain rfl : index = 0 := splits.resolve_left (by simp [contiguous])
    exact inside
  · exact fun inside => ⟨0, some_page, Or.inr rfl, inside⟩

theorem protectedAddrs_eq_listed_of_contiguous :
    call.protectedAddrs = call.listed ↔ call.request.pagesNum.toNat < 2 ^ 52 := by
  rw [protectedAddrs_of_contiguous succeeds contiguous]
  constructor
  · intro same
    by_contra many
    have all : call.listed = Set.univ := listed_eq_univ fun index index_lt =>
      ⟨index, by omega, targetAddrs_of_contiguous contiguous (by omega)⟩
    rw [all] at same
    exact WordRange.before_notMem (same ▸ Set.mem_univ _)
  · intro few
    ext addr
    rw [targetSize_eq, WordRange.mem_blocks_iff (by decide) (by simp only [pageSize]; omega)]
    refine exists_congr fun index => and_congr_right fun index_lt => ?_
    rw [targetAddrs_of_contiguous contiguous index_lt]
    rfl

end Contiguous

section Gaps

variable (aligned : ∀ index < call.request.pagesNum.toNat,
    pageSize ∣ (call.targetAddrs index).toNat)

include aligned

theorem eq_targetAddrs_of_listed {addr : UInt64} (addr_aligned : pageSize ∣ addr.toNat)
    (inside : addr ∈ call.listed) :
    ∃ index < call.request.pagesNum.toNat, call.targetAddrs index = addr := by
  rcases inside with ⟨index, index_lt, inside⟩
  exact ⟨index, index_lt, (WordRange.eq_of_mem_of_aligned (by decide) (by decide)
    (aligned index index_lt) addr_aligned inside).symm⟩

/-- If the page behind each listed page is listed too, then every address is. -/
theorem listed_eq_univ_of_closed (some_page : 0 < call.request.pagesNum.toNat)
    (closed : ∀ index < call.request.pagesNum.toNat,
      call.targetAddrs index + pageSizeWord ∈ call.listed) : call.listed = Set.univ := by
  have starts : ∀ index, WordRange.block pageSize (call.targetAddrs 0) index ∈
      { addr | ∃ number < call.request.pagesNum.toNat, call.targetAddrs number = addr } := by
    refine WordRange.block_mem_of_closed ⟨0, some_page, rfl⟩ ?_
    rintro _ ⟨index, index_lt, rfl⟩
    exact eq_targetAddrs_of_listed aligned
      (WordRange.dvd_toNat_add (by decide) (aligned index index_lt)) (closed index index_lt)
  exact listed_eq_univ fun index _ => starts index

variable {ret : ℤ} (succeeds : call.fopsIoctlDoMap.result = .ok ret)
  (gaps : call.targetContiguous = false)

include succeeds gaps

omit aligned in
theorem mem_protectedAddrs_of_gaps {addr : UInt64} :
    addr ∈ call.protectedAddrs ↔ ∃ index < call.request.pagesNum.toNat,
      addr ∈ wordRange (call.targetAddrs index) call.targetSize := by
  rw [mem_protectedAddrs_iff succeeds]
  simp [Splits, gaps]

/-- The calls for the single pages have the size of the whole list. -/
theorem protectedAddrs_eq_listed_of_gaps :
    call.protectedAddrs = call.listed ↔
      call.targetSize = pageSizeWord ∨ call.targetSize ≠ 0 ∧ call.listed = Set.univ := by
  rcases passes_of_succeeds succeeds with ⟨-, -, some_page, -⟩
  have whole : pageSize ∣ call.targetSize.toNat := by
    rw [targetSize_eq, UInt64.toNat_ofNat', Nat.dvd_mod_iff (by decide)]
    exact Nat.dvd_mul_right _ _
  have page_le : call.targetSize ≠ 0 → pageSizeWord ≤ call.targetSize := fun nonempty =>
    UInt64.le_iff_toNat_le.mpr <| Nat.le_of_dvd
      (Nat.pos_of_ne_zero fun none => nonempty (UInt64.toNat_inj.mp none)) whole
  constructor
  · intro same
    by_cases one : call.targetSize = pageSizeWord
    · exact Or.inl one
    have nonempty : call.targetSize ≠ 0 := by
      intro none
      have first : call.targetAddrs 0 ∈ call.listed :=
        ⟨0, some_page, WordRange.start_mem (by decide)⟩
      rw [← same, mem_protectedAddrs_of_gaps succeeds gaps, none] at first
      rcases first with ⟨index, -, inside⟩
      exact WordRange.notMem_empty inside
    refine Or.inr ⟨nonempty, listed_eq_univ_of_closed aligned some_page fun index index_lt => ?_⟩
    rw [← same, mem_protectedAddrs_of_gaps succeeds gaps]
    refine ⟨index, index_lt, WordRange.add_mem_iff.mpr ?_⟩
    exact UInt64.lt_of_le_of_ne (page_le nonempty) (Ne.symm one)
  · rintro (one | ⟨nonempty, all⟩)
    · ext addr
      rw [mem_protectedAddrs_of_gaps succeeds gaps, one]
      rfl
    · rw [all]
      refine Set.eq_univ_of_forall fun addr => ?_
      have inside : addr ∈ call.listed := all ▸ Set.mem_univ addr
      rcases inside with ⟨index, index_lt, inside⟩
      exact (mem_protectedAddrs_of_gaps succeeds gaps).mpr
        ⟨index, index_lt, WordRange.mono (page_le nonempty) inside⟩

end Gaps

theorem protectedAddrs_eq_listed_iff {ret : ℤ}
    (aligned : ∀ index < call.request.pagesNum.toNat, pageSize ∣ (call.targetAddrs index).toNat)
    (succeeds : call.fopsIoctlDoMap.result = .ok ret) :
    call.protectedAddrs = call.listed ↔ call.RangesFit := by
  rw [RangesFit]
  split
  · rename_i contiguous
    exact protectedAddrs_eq_listed_of_contiguous succeeds contiguous
  · rename_i gaps
    exact protectedAddrs_eq_listed_of_gaps aligned succeeds (Bool.not_eq_true _ ▸ gaps)

/-- As long as the size of the list does not wrap around, the list has to be contiguous. -/
theorem rangesFit_iff_of_lt
    (aligned : ∀ index < call.request.pagesNum.toNat, pageSize ∣ (call.targetAddrs index).toNat)
    (few : call.request.pagesNum.toNat < 2 ^ 52) :
    call.RangesFit ↔ call.targetContiguous = true := by
  rw [RangesFit]
  split
  · rename_i contiguous
    exact iff_of_true few contiguous
  · rename_i gaps
    refine iff_of_false ?_ gaps
    rintro (one | ⟨-, all⟩)
    · have sizes := congrArg UInt64.toNat one
      rw [targetSize_eq, UInt64.toNat_ofNat'] at sizes
      change pageSize * call.request.pagesNum.toNat % 2 ^ 64 = pageSize at sizes
      have onePage : call.request.pagesNum.toNat = 1 := by
        simp only [pageSize] at sizes
        omega
      exact gaps (by rw [targetContiguous, onePage]; rfl)
    · have total : pageSize * 2 ^ 52 = 2 ^ 64 := by decide
      refine absurd (@WordRange.le_of_all_blocks _ 0 _ _ total call.targetAddrs ?_) (not_le.mpr few)
      exact fun index _ => eq_targetAddrs_of_listed aligned
        (WordRange.dvd_toNat_block (by decide) (dvd_zero _) index) (all ▸ Set.mem_univ _)

end Ranges

/-! ## Flags -/

section Areas

variable {call : MapCall Mm} {target : Mm} {ret : ℤ}

variable [DecidableEq Mm]

/-- A lookup changes no flags. -/
theorem foldl_lookupTarget {vma : Option VmArea} {page addr : UInt64}
    (holds : VmArea.Holds vma page) (flags : UInt64) :
    (lookupTarget target vma page).acts.foldl (call.actFlags target addr) flags = flags := by
  rw [lookupTarget, Routine.foldl_act_bind, Routine.foldl_leaveIf_bind_of_not (not_not.mpr holds)]
  rfl

/-- Behind the second lookup, the area takes over the flags of the source. -/
theorem foldl_remapPage {index : ℕ} {after : MapVars} {addr : UInt64}
    (ends : (call.remapPage target index).result = .ok after) (flags : UInt64) :
    (call.remapPage target index).acts.foldl (call.actFlags target addr) flags =
      if call.InArea (call.targetAddrs index) addr then (call.replacedFields index).vmFlags
      else flags := by
  rcases result_remapPage_ok_iff.mp ends with ⟨targetPte, srcPte, remaps, -⟩
  rcases Option.ne_none_iff_exists'.mp targetPte with ⟨targetPte, targetPte_eq⟩
  rcases Option.ne_none_iff_exists'.mp srcPte with ⟨srcPte, srcPte_eq⟩
  simp [remapPage, resolveVm, Routine.bind_def, Routine.bind, Routine.act, Routine.leaveIf,
    Routine.orLeave, pure, targetPte_eq, srcPte_eq, Int.not_lt.mpr remaps, actFlags,
    replacedFields]

/-- An iteration changes the flags of an address that it does not protect by its area only. -/
theorem foldl_mapPage {index : ℕ} {vars after : MapVars} {addr : UInt64}
    (ends : (call.mapPage target index vars).result = .ok after)
    (unprotected : ∀ act ∈ (call.splitTarget index vars).acts, ∀ flags,
      call.actFlags target addr flags act = flags) (flags : UInt64) :
    (call.mapPage target index vars).acts.foldl (call.actFlags target addr) flags =
      if call.InArea (call.targetAddrs index) addr then (call.replacedFields index).vmFlags
      else flags := by
  simp only [mapPage, Routine.result_bind_ok_iff] at ends
  rcases ends with ⟨first, finds, split, splits, again, findsAgain, remaps⟩
  have kept : (call.splitTarget index vars).acts.foldl (call.actFlags target addr) flags = flags :=
    @Runs.after_of_kept _ _ _ (· = flags) _
      (fun act made state same => (unprotected act made state).trans same) flags rfl
  rw [mapPage, Routine.foldl_bind_of_ok finds, Routine.foldl_bind_of_ok splits,
    Routine.foldl_bind_of_ok findsAgain, foldl_lookupTarget (result_lookupTarget_ok_iff.mp finds),
    kept, foldl_lookupTarget (result_lookupTarget_ok_iff.mp findsAgain), foldl_remapPage remaps]

/-- The areas give an address its flags one after another, once the ranges leave it alone. -/
theorem flagsAfter_of_unprotected (succeeds : call.fopsIoctlDoMap.result = .ok ret)
    (found : call.targetMm = some target) {addr : UInt64} (other : addr ∉ call.protectedAddrs)
    (flags : UInt64) :
    call.flagsAfter target addr flags =
      Runs.after (fun flags index =>
        if call.InArea (call.targetAddrs index) addr then (call.replacedFields index).vmFlags
        else flags) flags (List.range call.request.pagesNum.toNat) := by
  rcases loop_of_succeeds succeeds with ⟨_, entries, last, checks, source, replied, loops⟩
  rcases result_checkRequest_ok_iff.mp checks with ⟨-, found', -⟩
  obtain rfl := Option.some.inj (found'.symm.trans found)
  have silent : call.checkRequest.acts = [] := silent_checkRequest
  rw [flagsAfter, Runs.after, fopsIoctlDoMap, Routine.foldl_bind_of_ok checks, silent,
    List.foldl_nil, mapPages, Routine.foldl_act_bind,
    Routine.foldl_leaveIf_bind_of_not (by simp [source]), Routine.foldl_act_bind,
    Routine.foldl_bind_of_ok loops, Routine.foldl_leaveIf_bind_of_not (by simp [replied]),
    Routine.foldl_act_bind, Routine.acts_pure, List.foldl_nil]
  refine Routine.foldl_loop_of_ok loops (fun index index_lt vars after reached ends flags => ?_) _
  refine foldl_mapPage ends (fun act made flags => ?_) flags
  cases act with
  | mprotect mm start len prot =>
      apply if_neg
      rintro ⟨-, inside⟩
      apply other
      refine ⟨mm, start, len, prot, ?_, inside⟩
      refine (mem_acts_iff succeeds found (by simp) (by simp) (by simp)).mpr
        ⟨index, index_lt, vars, reached, mprotect_mem_mapPage_iff.mpr ?_⟩
      exact ⟨(result_mapPage_ok_iff.mp ends).1, mprotect_mem_splitTarget_iff.mp made⟩
  | setVma mm found fields => exact absurd made setVma_notMem_splitTarget
  | _ => rfl

/-- Once the ranges are those of the list, the areas decide about the other addresses. -/
theorem keepsOthers_iff (succeeds : call.fopsIoctlDoMap.result = .ok ret)
    (found : call.targetMm = some target) (ranges : call.protectedAddrs = call.listed)
    (before : UInt64 → UInt64) :
    (∀ addr, addr ∉ call.listed → call.flagsAfter target addr (before addr) = before addr) ↔
      call.AreasKeep before := by
  refine forall₂_congr fun addr other => ?_
  rw [← ranges] at other
  rw [flagsAfter_of_unprotected succeeds found other, Runs.after_overwrites_eq_iff]

omit [DecidableEq Mm] in
theorem replacedFields_ne_zero (call : MapCall Mm) (index : ℕ) :
    (call.replacedFields index).vmFlags ≠ 0 := by
  rw [replacedFields, Ne, UInt64.or_eq_zero_iff]
  exact fun none => absurd none.2 (by decide)

omit [DecidableEq Mm] in
/-- Areas keep all flags exactly if they hold listed pages only. -/
theorem forall_areasKeep_iff :
    (∀ before, call.AreasKeep before) ↔
      ∀ index < call.request.pagesNum.toNat, ∀ addr,
        VmArea.Holds (call.targetVmaAgain index) addr → addr ∈ call.listed := by
  constructor
  · intro keeps index index_lt addr inArea
    by_contra other
    have kept := Runs.after_overwrites_eq_iff.mpr (keeps (fun _ => 0) addr other)
    refine @Runs.after_of_mem _ _ _ (· ≠ 0) _ _ (List.mem_range.mpr index_lt) (fun flags => ?_)
      (fun later _ flags set => ?_) 0 kept
    · rw [if_pos ⟨index, index_lt, rfl, inArea⟩]
      exact replacedFields_ne_zero call index
    · split
      · exact replacedFields_ne_zero call later
      · exact set
  · rintro inside before addr other index - ⟨number, number_lt, -, inArea⟩
    exact absurd (inside number number_lt addr inArea) other

/--
A mapping changes the listed pages and no others exactly if its ranges fit the list and
the other addresses in the areas of the pages have the flags that these bring. Whatever
flags there are, it does so exactly if the areas hold no other page.
-/
theorem changesOnlyListed_iff (call : MapCall Mm)
    (aligned : ∀ index < call.request.pagesNum.toNat, pageSize ∣ (call.targetAddrs index).toNat)
    (succeeds : call.fopsIoctlDoMap.result = .ok ret) :
    (call.protectedAddrs = call.listed ↔ call.RangesFit) ∧
    (∀ before, call.ChangesOnlyListed before ↔ call.RangesFit ∧ call.AreasKeep before) ∧
    ((∀ before, call.ChangesOnlyListed before) ↔
      call.RangesFit ∧ ∀ index < call.request.pagesNum.toNat, ∀ addr,
        VmArea.Holds (call.targetVmaAgain index) addr → addr ∈ call.listed) := by
  have ranges_iff := protectedAddrs_eq_listed_iff aligned succeeds
  rcases passes_of_succeeds succeeds with ⟨target, found, -, -⟩
  have each : ∀ before,
      call.ChangesOnlyListed before ↔ call.RangesFit ∧ call.AreasKeep before := by
    intro before
    constructor
    · rintro ⟨ranges, others⟩
      exact ⟨ranges_iff.mp ranges,
        (keepsOthers_iff succeeds found ranges before).mp (others target found)⟩
    · rintro ⟨fit, keeps⟩
      have ranges := ranges_iff.mpr fit
      exact ⟨ranges, fun _ found' => (keepsOthers_iff succeeds found' ranges before).mpr keeps⟩
  refine ⟨ranges_iff, each, ?_⟩
  rw [← forall_areasKeep_iff]
  simp only [each, forall_and, forall_const]

end Areas

/-- A mapping over two pages that follow one another. -/
def contiguousPages : MapCall ℕ :=
  { ownPage with
    request := ⟨0x1000, 2, 7, 0x8000, 0⟩
    targetAddrs := fun index => 0x5000 + UInt64.ofNat (pageSize * index)
    srcVma := some ⟨0x1000, 0x3000⟩
    targetVma := fun _ => some ⟨0x4000, 0xc000⟩
    targetVmaAgain := fun _ => some ⟨0x5000, 0x7000⟩ }

theorem changesOnlyListed_contiguousPages :
    contiguousPages.protectedAddrs = contiguousPages.listed ∧
      ∀ before, contiguousPages.ChangesOnlyListed before := by
  have succeeds : contiguousPages.fopsIoctlDoMap.result = .ok 0 := rfl
  have fit : contiguousPages.RangesFit :=
    (rangesFit_iff_of_lt (by decide) (by decide)).mpr rfl
  rcases changesOnlyListed_iff contiguousPages (by decide) succeeds with ⟨ranges, -, every⟩
  refine ⟨ranges.mpr fit, every.mpr ⟨fit, ?_⟩⟩
  rintro index - addr ⟨_, ⟨⟩, inside⟩
  have range : addr ∈ wordRange 0x5000 (UInt64.ofNat (pageSize * 2)) := by
    have start : (0x5000 : UInt64).toNat = 0x5000 := rfl
    have size : (UInt64.ofNat (pageSize * 2)).toNat = 0x2000 := rfl
    have stop : (0x7000 : UInt64).toNat = 0x7000 := rfl
    rw [not_or, UInt64.le_iff_toNat_le, UInt64.lt_iff_toNat_lt, start, stop] at inside
    rw [WordRange.mem_iff, UInt64.toNat_sub, start, size]
    omega
  exact (WordRange.mem_blocks_iff (by decide) (by decide)).mp range

/-- A mapping over two pages with three others between them. -/
def gapPages : MapCall ℕ :=
  { contiguousPages with
    targetAddrs := fun index => if index = 0 then 0x5000 else 0x9000
    targetVmaAgain := fun index =>
      if index = 0 then some ⟨0x5000, 0x7000⟩ else some ⟨0x9000, 0xb000⟩ }

/-- The page between the two is made executable, although it is not in the list. -/
theorem gapPages_changes_others :
    gapPages.fopsIoctlDoMap.result = .ok 0 ∧
    (∀ index < 2, pageSize ∣ (gapPages.targetAddrs index).toNat) ∧
    0x6000 ∉ gapPages.listed ∧ 0x6000 ∈ gapPages.protectedAddrs ∧
    gapPages.flagsAfter 1 0x6000 3 = 0x2b ∧ ∀ before, ¬gapPages.ChangesOnlyListed before := by
  have notListed : ∀ index < 2,
      0x6000 ∉ wordRange (gapPages.targetAddrs index) pageSizeWord := by decide
  have other : 0x6000 ∉ gapPages.listed := fun ⟨index, index_lt, inside⟩ =>
    notListed index index_lt inside
  have set : (0x6000 : UInt64) ∈ gapPages.protectedAddrs :=
    ⟨1, 0x5000, 0x2000, protAll, by decide, by decide⟩
  exact ⟨rfl, by decide, other, set, by decide, fun _ changes => other (changes.ranges ▸ set)⟩

end MapCall

end Acai
