import Acai.Driver.Sgdma
import Acai.Lib.Ledger
import Mathlib.Algebra.Order.BigOperators.Group.List
import Mathlib.Data.List.Forall2

/-!
# The remote transfer of the host driver

`char_sgdma_read_write_remote` checks the engine and the alignment of the transfer,
pins the pages of the records that it got from the manager, hands the scatterlist
to the engine and releases the pages. The result of `xdma_xfer_submit` is a
parameter.

The release goes by `cb->pages_nr`, which `map_remote_pages_to_sgl` sets at its end
only, and an error of that function returns without a release at all.
-/

namespace Acai

/-! ## The checks before a transfer -/

/-- `enum dma_data_direction` -/
inductive DmaDirection where
  | bidirectional
  | toDevice
  | fromDevice
  | none
  deriving DecidableEq

structure XdmaEngine where
  magic : ℕ
  dir : DmaDirection
  addrAlign : UInt8
  lenGranularity : UInt8
  nonIncrAddr : Bool

structure XdmaDev where
  magic : ℕ

/-- The private data of an open device file; `none` is a null pointer. -/
structure XdmaCdev where
  magic : ℕ
  xdev : Option XdmaDev
  engine : Option XdmaEngine

def magicEngine : ℕ := 0xEEEEEEEE

def magicDevice : ℕ := 0xDDDDDDDD

def magicChar : ℕ := 0xCCCCCCCC

def xcdevCheck (xcdev : Option XdmaCdev) (checkEngine : Bool) : ℤ :=
  match xcdev with
  | none => -Errno.EINVAL.code
  | some xcdev =>
      if xcdev.magic ≠ magicChar then -Errno.EINVAL.code
      else
        match xcdev.xdev with
        | none => -Errno.EINVAL.code
        | some xdev =>
            if xdev.magic ≠ magicDevice then -Errno.EINVAL.code
            else if checkEngine then
              match xcdev.engine with
              | none => -Errno.EINVAL.code
              | some engine => if engine.magic ≠ magicEngine then -Errno.EINVAL.code else 0
            else 0

/-- The mask `addr_align - 1` of an `int`, which is -1 for an alignment of 0. -/
def XdmaEngine.alignMask (engine : XdmaEngine) : ℕ := u32 (engine.addrAlign.toNat + (2 ^ 32 - 1))

def XdmaEngine.lenMask (engine : XdmaEngine) : ℕ :=
  u64 (engine.lenGranularity.toNat + (2 ^ 64 - 1))

def checkTransferAlign (engine : Option XdmaEngine) (buf count pos : ℕ) (sync : Bool) : ℤ :=
  match engine with
  | none => -Errno.EINVAL.code
  | some engine =>
      let bufLsb := u32 buf &&& engine.alignMask
      let posLsb := u32 pos &&& engine.alignMask
      if engine.nonIncrAddr then
        let lenLsb := count &&& engine.lenMask
        if bufLsb ≠ 0 then -Errno.EINVAL.code
        else if posLsb ≠ 0 ∧ sync then -Errno.EINVAL.code
        else if lenLsb ≠ 0 then -Errno.EINVAL.code
        else 0
      else if bufLsb ≠ posLsb then -Errno.EINVAL.code
      else 0

/-! ## The transfer -/

/-- The arguments of `char_sgdma_read_write_remote`, and what the kernel and the engine do in the
call. -/
structure RemoteArgs where
  xcdev : Option XdmaCdev
  dma : FhHostIoctlDma
  count : UInt64
  remoteAddr : UInt64
  write : Bool
  kernel : RemoteKernel
  /-- The result of `xdma_xfer_submit`. -/
  xferSubmit : ℤ

namespace RemoteArgs

def direction (args : RemoteArgs) : DmaDirection :=
  if args.write then .toDevice else .fromDevice

/-- The checks at the start of `char_sgdma_read_write_remote`; 0 if the transfer goes on. -/
def check (args : RemoteArgs) : ℤ :=
  let engine := args.xcdev.bind XdmaCdev.engine
  if xcdevCheck args.xcdev true < 0 then xcdevCheck args.xcdev true
  else if engine.map XdmaEngine.dir ≠ some args.direction then -Errno.EINVAL.code
  else
    checkTransferAlign engine args.dma.userBuf args.count.toNat args.remoteAddr.toNat true

end RemoteArgs

structure RemoteOutcome where
  ret : ℤ
  /-- The references to pages that were taken and given back, in order. -/
  refs : List (Ledger.Event Page)
  /-- What was handed to `xdma_xfer_submit`, if it was called. -/
  submitted : Option XdmaIoCb

/-- `char_sgdma_unmap_user_buf`, by the references that it gives back. -/
def charSgdmaUnmapUserBuf (cb : XdmaIoCb) : List (Ledger.Event Page) :=
  match cb.pages with
  | none => []
  | some pages => (pages.take cb.pagesNr).map .release

/-- The references that `map_remote_pages_to_sgl` has taken when it returns. -/
def XdmaIoCb.taken (cb : XdmaIoCb) : List (Ledger.Event Page) :=
  (cb.pages.getD []).map .acquire

def charSgdmaReadWriteRemote (args : RemoteArgs) : RemoteOutcome :=
  if args.check ≠ 0 then ⟨args.check, [], none⟩
  else
    let (rv, cb) := mapRemotePages args.kernel args.count.toNat args.dma
    if rv < 0 then ⟨rv, cb.taken, none⟩
    else ⟨args.xferSubmit, cb.taken ++ charSgdmaUnmapUserBuf cb, some cb⟩

theorem xcdevCheck_cases (xcdev : Option XdmaCdev) (checkEngine : Bool) :
    xcdevCheck xcdev checkEngine = 0 ∨ xcdevCheck xcdev checkEngine = -Errno.EINVAL.code := by
  fun_cases xcdevCheck <;> simp_all

theorem checkTransferAlign_cases (engine : Option XdmaEngine) (buf count pos : ℕ) (sync : Bool) :
    checkTransferAlign engine buf count pos sync = 0 ∨
      checkTransferAlign engine buf count pos sync = -Errno.EINVAL.code := by
  fun_cases checkTransferAlign <;> simp_all

theorem RemoteArgs.check_cases (args : RemoteArgs) :
    args.check = 0 ∨ args.check = -Errno.EINVAL.code := by
  rw [RemoteArgs.check]
  split
  · exact xcdevCheck_cases ..
  split
  · exact Or.inr rfl
  · exact checkTransferAlign_cases ..

/-! ## The lookups of the pages -/

namespace RemoteKernel

variable {kernel : RemoteKernel}

/-- One iteration of the loop that pins the pages. -/
def lookup (kernel : RemoteKernel) (index addr : ℕ) : RemotePage :=
  if kernel.getMm index then kernel.getUserPagesRemote index addr
  else .error ⟨-Errno.ENOMEM.code, by decide, by decide⟩

/-- Every lookup finds a page, from iteration `index` on. -/
def Obtains (kernel : RemoteKernel) (index : ℕ) (chunks : List PageChunk) (pages : List Page) :
    Prop :=
  List.Forall₂ (fun entry page => kernel.lookup entry.2 entry.1.addr = .pinned page)
    (chunks.zipIdx index) pages

/-- Some lookup finds no page and reports no error, behind lookups that find one. -/
def Misses (kernel : RemoteKernel) (index : ℕ) (chunks : List PageChunk) : Prop :=
  ∃ front chunk back pages, chunks = front ++ chunk :: back ∧ kernel.Obtains index front pages ∧
    kernel.lookup (index + front.length) chunk.addr = .notPinned

theorem obtains_cons_iff {index : ℕ} {chunk : PageChunk} {chunks : List PageChunk}
    {pages : List Page} :
    kernel.Obtains index (chunk :: chunks) pages ↔
      ∃ page rest, pages = page :: rest ∧ kernel.lookup index chunk.addr = .pinned page ∧
        kernel.Obtains (index + 1) chunks rest := by
  simp only [Obtains, List.zipIdx_cons, List.forall₂_cons_left_iff]
  constructor
  · rintro ⟨page, rest, found, others, rfl⟩
    exact ⟨page, rest, rfl, found, others⟩
  · rintro ⟨page, rest, rfl, found, others⟩
    exact ⟨page, rest, found, others, rfl⟩

theorem Obtains.length_eq {index : ℕ} {chunks : List PageChunk} {pages : List Page}
    (obtains : kernel.Obtains index chunks pages) : pages.length = chunks.length := by
  rw [← List.Forall₂.length_eq obtains, List.length_zipIdx]

theorem not_misses_nil {index : ℕ} : ¬kernel.Misses index [] := by
  rintro ⟨front, chunk, back, pages, split, -⟩
  simp at split

theorem misses_cons_iff {index : ℕ} {chunk : PageChunk} {chunks : List PageChunk} :
    kernel.Misses index (chunk :: chunks) ↔
      kernel.lookup index chunk.addr = .notPinned ∨
        (∃ page, kernel.lookup index chunk.addr = .pinned page) ∧
          kernel.Misses (index + 1) chunks := by
  constructor
  · rintro ⟨front, missed, back, pages, split, obtains, found⟩
    cases front with
    | nil =>
        rw [List.nil_append, List.cons.injEq] at split
        rw [← split.1] at found
        exact Or.inl found
    | cons first front =>
        rw [List.cons_append, List.cons.injEq] at split
        rcases split with ⟨rfl, rfl⟩
        rcases obtains_cons_iff.mp obtains with ⟨page, rest, -, now, later⟩
        refine Or.inr ⟨⟨page, now⟩, front, missed, back, rest, rfl, later, ?_⟩
        rwa [List.length_cons, Nat.add_comm front.length 1, ← Nat.add_assoc] at found
  · rintro (missed | ⟨⟨page, now⟩, front, missed, back, rest, rfl, later, found⟩)
    · exact ⟨[], chunk, chunks, [], rfl, List.Forall₂.nil, missed⟩
    · refine ⟨chunk :: front, missed, back, page :: rest, rfl,
        obtains_cons_iff.mpr ⟨page, rest, rfl, now, later⟩, ?_⟩
      rwa [List.length_cons, Nat.add_comm front.length 1, ← Nat.add_assoc]

end RemoteKernel

section Lookups

variable {kernel : RemoteKernel} {index : ℕ} {chunk : PageChunk} {chunks : List PageChunk}

theorem remotePages_cons_pinned {page : Page}
    (found : kernel.lookup index chunk.addr = .pinned page) :
    remotePages kernel index (chunk :: chunks) =
      (page :: (remotePages kernel (index + 1) chunks).1,
        (remotePages kernel (index + 1) chunks).2) := by
  simp only [RemoteKernel.lookup] at found
  split at found
  · rename_i getMm
    simp only [remotePages, getMm, Bool.not_true, Bool.false_eq_true, ↓reduceIte, found]
  · cases found

/-- A lookup that finds no page ends the loop, with 0 if it reports no error. -/
theorem remotePages_cons_failed (failed : ∀ page, kernel.lookup index chunk.addr ≠ .pinned page) :
    ∃ ret, remotePages kernel index (chunk :: chunks) = ([], some ret) ∧ -2 ^ 31 ≤ ret ∧ ret ≤ 0 ∧
      (ret = 0 ↔ kernel.lookup index chunk.addr = .notPinned) := by
  simp only [RemoteKernel.lookup] at failed ⊢
  by_cases getMm : kernel.getMm index = true
  · simp only [remotePages, getMm, Bool.not_true, Bool.false_eq_true, ↓reduceIte] at failed ⊢
    cases answer : kernel.getUserPagesRemote index chunk.addr with
    | error rv =>
        refine ⟨rv.val, rfl, rv.property.1, rv.property.2.le, ?_⟩
        simp [rv.property.2.ne]
    | notPinned => exact ⟨0, rfl, by decide, le_rfl, by simp⟩
    | pinned page => exact absurd answer (failed page)
  · simp only [remotePages, getMm, Bool.not_false, ↓reduceIte]
    exact ⟨-Errno.ENOMEM.code, rfl, by decide, by decide, by simp [Errno.code]⟩

theorem remotePages_eq_none_iff {pages : List Page} :
    remotePages kernel index chunks = (pages, none) ↔ kernel.Obtains index chunks pages := by
  induction chunks generalizing index pages with
  | nil =>
      rw [remotePages, RemoteKernel.Obtains, List.zipIdx_nil, List.forall₂_nil_left_iff]
      simp [eq_comm]
  | cons chunk chunks ih =>
      rw [RemoteKernel.obtains_cons_iff]
      by_cases found : ∃ page, kernel.lookup index chunk.addr = .pinned page
      · rcases found with ⟨page, found⟩
        rw [remotePages_cons_pinned found]
        constructor
        · intro all
          rw [Prod.mk.injEq] at all
          refine ⟨page, _, all.1.symm, found, ih.mp (Prod.ext rfl all.2)⟩
        · rintro ⟨other, rest, rfl, again, later⟩
          rw [found] at again
          cases again
          rw [ih.mpr later]
      · rw [not_exists] at found
        rcases remotePages_cons_failed found with ⟨ret, ends, -⟩
        rw [ends]
        constructor
        · intro all
          cases all
        · rintro ⟨page, rest, -, again, -⟩
          exact absurd again (found page)

theorem remotePages_eq_zero_iff :
    (remotePages kernel index chunks).2 = some 0 ↔ kernel.Misses index chunks := by
  induction chunks generalizing index with
  | nil => exact iff_of_false (by simp [remotePages]) RemoteKernel.not_misses_nil
  | cons chunk chunks ih =>
      rw [RemoteKernel.misses_cons_iff]
      by_cases found : ∃ page, kernel.lookup index chunk.addr = .pinned page
      · rcases found with ⟨page, found⟩
        rw [remotePages_cons_pinned found, ih, found]
        simp
      · rw [not_exists] at found
        rcases remotePages_cons_failed found with ⟨ret, ends, -, -, zero⟩
        rw [ends, ← zero]
        simp [found]

/-- The value that an early end of the loop returns is never positive. -/
theorem remotePages_early_nonpos {pages : List Page} {ret : ℤ}
    (ends : remotePages kernel index chunks = (pages, some ret)) : -2 ^ 31 ≤ ret ∧ ret ≤ 0 := by
  induction chunks generalizing index pages with
  | nil => cases ends
  | cons chunk chunks ih =>
      by_cases found : ∃ page, kernel.lookup index chunk.addr = .pinned page
      · rcases found with ⟨page, found⟩
        rw [remotePages_cons_pinned found, Prod.mk.injEq] at ends
        exact ih (Prod.ext rfl ends.2)
      · rw [not_exists] at found
        rcases remotePages_cons_failed found with ⟨other, early, range⟩
        rw [early] at ends
        cases ends
        exact ⟨range.1, range.2.1⟩

/-- The loop pins no page exactly when its first lookup finds none. -/
theorem remotePages_fst_eq_nil_iff :
    (remotePages kernel index chunks).1 = [] ↔
      ∀ chunk ∈ chunks.head?, ∀ page, kernel.lookup index chunk.addr ≠ .pinned page := by
  cases chunks with
  | nil => simp [remotePages]
  | cons chunk chunks =>
      by_cases found : ∃ page, kernel.lookup index chunk.addr = .pinned page
      · rcases found with ⟨page, found⟩
        rw [remotePages_cons_pinned found]
        simp [found]
      · rw [not_exists] at found
        rcases remotePages_cons_failed found with ⟨ret, ends, -⟩
        rw [ends]
        simpa using found

namespace RemoteKernel.Obtains

variable {pages others : List Page}

theorem unique (obtains : kernel.Obtains index chunks pages)
    (again : kernel.Obtains index chunks others) : others = pages := by
  have all := remotePages_eq_none_iff.mpr obtains
  rw [remotePages_eq_none_iff.mpr again] at all
  exact congrArg Prod.fst all

theorem not_early {ret : ℤ} (obtains : kernel.Obtains index chunks pages) :
    remotePages kernel index chunks ≠ (others, some ret) := by
  rw [remotePages_eq_none_iff.mpr obtains]
  exact nofun

theorem not_misses (obtains : kernel.Obtains index chunks pages) :
    ¬kernel.Misses index chunks := by
  rw [← remotePages_eq_zero_iff, remotePages_eq_none_iff.mpr obtains]
  exact nofun

theorem eq_nil_iff (obtains : kernel.Obtains index chunks pages) :
    pages = [] ↔
      ∀ chunk ∈ chunks.head?, ∀ page, kernel.lookup index chunk.addr ≠ .pinned page := by
  rw [← remotePages_fst_eq_nil_iff, remotePages_eq_none_iff.mpr obtains]

end RemoteKernel.Obtains

end Lookups

/-! ## The length check -/

theorem remainingLen_add_sum (len : ℕ) (chunks : List PageChunk) :
    (remainingLen len chunks + (chunks.map fun chunk => u32 chunk.nbytes).sum) % 2 ^ 64 =
      len % 2 ^ 64 := by
  induction chunks generalizing len with
  | nil => rfl
  | cons chunk chunks ih =>
      have rest := ih (u64 (len + (2 ^ 64 - u32 chunk.nbytes)))
      have narrow : u32 chunk.nbytes < 2 ^ 32 := Nat.mod_lt _ (by decide)
      have first : remainingLen len (chunk :: chunks) =
          remainingLen (u64 (len + (2 ^ 64 - u32 chunk.nbytes))) chunks := rfl
      rw [first, List.map_cons, List.sum_cons]
      rw [u64] at rest ⊢
      omega

theorem remainingLen_lt {len : ℕ} {chunks : List PageChunk} (inSpace : len < 2 ^ 64) :
    remainingLen len chunks < 2 ^ 64 := by
  induction chunks generalizing len with
  | nil => exact inSpace
  | cons chunk chunks ih => exact ih (Nat.mod_lt _ (by decide))

theorem sum_narrow_le (chunks : List PageChunk) :
    (chunks.map fun chunk => u32 chunk.nbytes).sum ≤ chunks.length * (2 ^ 32 - 1) := by
  refine (List.sum_le_card_nsmul _ (2 ^ 32 - 1) ?_).trans ?_
  · intro nbytes member
    rcases List.mem_map.mp member with ⟨chunk, -, rfl⟩
    rw [u32]
    omega
  · simp

/-- Fewer than 2³² lengths of 32 bits do not wrap around. -/
theorem remainingLen_eq_zero_iff {len : ℕ} {chunks : List PageChunk} (inSpace : len < 2 ^ 64)
    (few : chunks.length < 2 ^ 32) :
    remainingLen len chunks = 0 ↔ (chunks.map fun chunk => u32 chunk.nbytes).sum = len := by
  have total := remainingLen_add_sum len chunks
  have rest := @remainingLen_lt len chunks inSpace
  have bound : (chunks.map fun chunk => u32 chunk.nbytes).sum < 2 ^ 64 := by
    have atMost := sum_narrow_le chunks
    have product : chunks.length * (2 ^ 32 - 1) ≤ (2 ^ 32 - 1) * (2 ^ 32 - 1) :=
      Nat.mul_le_mul_right _ (by omega)
    omega
  omega

/-! ## What the function can do -/

/-- The list is not empty and the allocations succeed. -/
structure RemoteKernel.Builds (kernel : RemoteKernel) (dma : FhHostIoctlDma) : Prop where
  pagesNr : u32 dma.chunksNr ≠ 0
  tableAlloc : kernel.tableAlloc = true
  pagesAlloc : kernel.pagesAlloc = true

/-- The records that `map_remote_pages_to_sgl` goes through. -/
def FhHostIoctlDma.counted (dma : FhHostIoctlDma) : List PageChunk :=
  dma.chunks.take (u32 dma.chunksNr)

theorem length_counted_lt (dma : FhHostIoctlDma) : dma.counted.length < 2 ^ 32 := by
  have narrow : u32 dma.chunksNr < 2 ^ 32 := Nat.mod_lt _ (by decide)
  rw [FhHostIoctlDma.counted, List.length_take]
  omega

theorem length_counted_le (dma : FhHostIoctlDma) : dma.counted.length ≤ u32 dma.chunksNr := by
  rw [FhHostIoctlDma.counted]
  exact List.length_take_le ..

/-- The ends of `map_remote_pages_to_sgl`. -/
inductive MapsRemote (kernel : RemoteKernel) (len : ℕ) (dma : FhHostIoctlDma) :
    ℤ → XdmaIoCb → Prop where
  | refused (ret : ℤ) (stops : ¬kernel.Builds dma) (range : -2 ^ 31 ≤ ret ∧ ret < 0) :
      MapsRemote kernel len dma ret .cleared
  | early (ret : ℤ) (pages : List Page) (builds : kernel.Builds dma)
      (ends : remotePages kernel 0 dma.counted = (pages, some ret)) :
      MapsRemote kernel len dma ret { XdmaIoCb.cleared with pages := some pages }
  | rejected (ret : ℤ) (pages : List Page) (cb : XdmaIoCb) (builds : kernel.Builds dma)
      (obtains : kernel.Obtains 0 dma.counted pages)
      (mismatch : hasDuplicate pages = true ∨
        (dma.counted.map fun chunk => u32 chunk.nbytes).sum ≠ len)
      (range : -2 ^ 31 ≤ ret ∧ ret < 0) (held : cb.pages = some pages) :
      MapsRemote kernel len dma ret cb
  | complete (pages : List Page) (builds : kernel.Builds dma)
      (obtains : kernel.Obtains 0 dma.counted pages)
      (noDuplicate : hasDuplicate pages = false)
      (sum : (dma.counted.map fun chunk => u32 chunk.nbytes).sum = len) :
      MapsRemote kernel len dma 0
        ⟨some pages, u32 dma.chunksNr, some (remoteEntries pages dma.counted)⟩

theorem mapsRemote (kernel : RemoteKernel) {len : ℕ} (inSpace : len < 2 ^ 64)
    (dma : FhHostIoctlDma) :
    MapsRemote kernel len dma (mapRemotePages kernel len dma).1
      (mapRemotePages kernel len dma).2 := by
  simp only [mapRemotePages]
  split
  · rename_i empty
    exact .refused _ (fun builds => builds.pagesNr empty) (by decide)
  rename_i pagesNr
  split
  · rename_i noTable
    exact .refused _ (fun builds => by simp [builds.tableAlloc] at noTable) (by decide)
  rename_i tableAlloc
  split
  · rename_i noPages
    exact .refused _ (fun builds => by simp [builds.pagesAlloc] at noPages) (by decide)
  rename_i pagesAlloc
  have builds : kernel.Builds dma := ⟨pagesNr, by simpa using tableAlloc, by simpa using pagesAlloc⟩
  rw [← FhHostIoctlDma.counted]
  split
  · rename_i pages ret ends
    exact .early ret pages builds ends
  · rename_i pages all
    have obtains := remotePages_eq_none_iff.mp all
    have usedUp := @remainingLen_eq_zero_iff len dma.counted inSpace (length_counted_lt dma)
    split
    · rename_i duplicate
      exact .rejected (-Errno.EFAULT.code) pages _ builds obtains (Or.inl duplicate) (by decide) rfl
    rename_i noDuplicate
    split
    · rename_i rest
      exact .rejected (-Errno.EINVAL.code) pages _ builds obtains (Or.inr (usedUp.not.mp rest))
        (by decide) rfl
    · rename_i whole
      exact .complete pages builds obtains (by simpa using noDuplicate)
        (usedUp.mp (not_not.mp whole))

/-! ## The references to the pages -/

/-- The transfer pins no page, or gets through all checks of `map_remote_pages_to_sgl`. -/
inductive RemoteArgs.GivesBack (args : RemoteArgs) : Prop where
  | refused (stops : args.check ≠ 0)
  | noList (stops : ¬args.kernel.Builds args.dma)
  | noneFirst (first : ∀ chunk ∈ args.dma.counted.head?, ∀ page,
      args.kernel.lookup 0 chunk.addr ≠ .pinned page)
  | complete (pages : List Page) (obtains : args.kernel.Obtains 0 args.dma.counted pages)
      (noDuplicate : hasDuplicate pages = false)
      (sum : (args.dma.counted.map fun chunk => u32 chunk.nbytes).sum = args.count.toNat)

/-- A transfer that starts to look up its pages and does not get through all checks. -/
theorem RemoteArgs.givesBack_iff_noneFirst {args : RemoteArgs} (passes : args.check = 0)
    (builds : args.kernel.Builds args.dma)
    (incomplete : ∀ pages, args.kernel.Obtains 0 args.dma.counted pages →
      hasDuplicate pages = false →
        (args.dma.counted.map fun chunk => u32 chunk.nbytes).sum ≠ args.count.toNat) :
    args.GivesBack ↔ ∀ chunk ∈ args.dma.counted.head?, ∀ page,
      args.kernel.lookup 0 chunk.addr ≠ .pinned page := by
  constructor
  · rintro (refused | noList | first | ⟨pages, obtains, noDuplicate, sum⟩)
    · exact absurd passes refused
    · exact absurd builds noList
    · exact first
    · exact absurd sum (incomplete pages obtains noDuplicate)
  · exact .noneFirst

theorem balanced_taken_iff {cb : XdmaIoCb} {pages : List Page} (held : cb.pages = some pages) :
    Ledger.Balanced cb.taken ↔ pages = [] := by
  rw [XdmaIoCb.taken, held]
  exact Ledger.balanced_acquires_iff

theorem charSgdmaReadWriteRemote_failed {args : RemoteArgs} (passes : args.check = 0)
    (failed : (mapRemotePages args.kernel args.count.toNat args.dma).1 < 0) :
    charSgdmaReadWriteRemote args =
      ⟨(mapRemotePages args.kernel args.count.toNat args.dma).1,
        (mapRemotePages args.kernel args.count.toNat args.dma).2.taken, none⟩ := by
  simp only [charSgdmaReadWriteRemote, passes, ne_eq, not_true_eq_false, failed, ↓reduceIte]

theorem charSgdmaReadWriteRemote_submits {args : RemoteArgs} (passes : args.check = 0)
    (goes : ¬(mapRemotePages args.kernel args.count.toNat args.dma).1 < 0) :
    charSgdmaReadWriteRemote args =
      ⟨args.xferSubmit, (mapRemotePages args.kernel args.count.toNat args.dma).2.taken ++
          charSgdmaUnmapUserBuf (mapRemotePages args.kernel args.count.toNat args.dma).2,
        some (mapRemotePages args.kernel args.count.toNat args.dma).2⟩ := by
  simp only [charSgdmaReadWriteRemote, passes, ne_eq, not_true_eq_false, goes, ↓reduceIte]

/-- What was submitted was built without an error. -/
theorem charSgdmaReadWriteRemote_submitted {args : RemoteArgs} {cb : XdmaIoCb}
    (submitted : (charSgdmaReadWriteRemote args).submitted = some cb) :
    ¬(mapRemotePages args.kernel args.count.toNat args.dma).1 < 0 ∧
      cb = (mapRemotePages args.kernel args.count.toNat args.dma).2 := by
  simp only [charSgdmaReadWriteRemote] at submitted
  split at submitted
  · cases submitted
  split at submitted
  · cases submitted
  · rename_i goes
    cases submitted
    exact ⟨goes, rfl⟩

/-- A transfer that gets to `xdma_xfer_submit`: the lookups and the checks behind them succeed, or a
lookup ends without a page and without an error. -/
structure RemoteArgs.Submits (args : RemoteArgs) : Prop where
  passes : args.check = 0
  builds : args.kernel.Builds args.dma
  goes : args.kernel.Misses 0 args.dma.counted ∨
    ∃ pages, args.kernel.Obtains 0 args.dma.counted pages ∧ hasDuplicate pages = false ∧
      (args.dma.counted.map fun chunk => u32 chunk.nbytes).sum = args.count.toNat

theorem mapRemotePages_neg_iff {args : RemoteArgs} (passes : args.check = 0) :
    (mapRemotePages args.kernel args.count.toNat args.dma).1 < 0 ↔ ¬args.Submits := by
  have built := mapsRemote args.kernel args.count.toNat_lt args.dma
  generalize mapRemotePages args.kernel args.count.toNat args.dma = result at built ⊢
  obtain ⟨ret, cb⟩ := result
  dsimp only at built ⊢
  cases built with
  | refused _ stops range =>
      refine iff_of_true range.2 ?_
      intro submits
      exact stops submits.builds
  | early _ pages builds ends =>
      have nonpos := (remotePages_early_nonpos ends).2
      constructor
      · rintro negative ⟨-, -, misses | ⟨all, obtains, -⟩⟩
        · have zero := remotePages_eq_zero_iff.mpr misses
          rw [ends] at zero
          cases zero
          exact absurd negative (lt_irrefl 0)
        · exact obtains.not_early ends
      · intro refused
        apply lt_of_le_of_ne nonpos
        rintro rfl
        exact refused ⟨passes, builds, Or.inl (remotePages_eq_zero_iff.mp (by rw [ends]))⟩
  | rejected _ pages _ builds obtains mismatch range held =>
      refine iff_of_true range.2 ?_
      rintro ⟨-, -, misses | ⟨all, again, noDuplicate, sum⟩⟩
      · exact obtains.not_misses misses
      · rw [obtains.unique again] at noDuplicate
        simp [noDuplicate, sum] at mismatch
  | complete pages builds obtains noDuplicate sum =>
      refine iff_of_false (lt_irrefl 0) ?_
      intro refused
      exact refused ⟨passes, builds, Or.inr ⟨pages, obtains, noDuplicate, sum⟩⟩

theorem mapRemotePages_ge (args : RemoteArgs) :
    -2 ^ 31 ≤ (mapRemotePages args.kernel args.count.toNat args.dma).1 := by
  have built := mapsRemote args.kernel args.count.toNat_lt args.dma
  generalize mapRemotePages args.kernel args.count.toNat args.dma = result at built ⊢
  obtain ⟨ret, cb⟩ := result
  dsimp only at built ⊢
  cases built with
  | refused _ stops range => exact range.1
  | early _ pages builds ends => exact (remotePages_early_nonpos ends).1
  | rejected _ pages _ builds obtains mismatch range held => exact range.1
  | complete pages builds obtains noDuplicate sum => decide

/-- A transfer that does not get to `xdma_xfer_submit` fails with a negative `int`. -/
theorem charSgdmaReadWriteRemote_refused {args : RemoteArgs} (refused : ¬args.Submits) :
    (charSgdmaReadWriteRemote args).submitted = none ∧
      -2 ^ 31 ≤ (charSgdmaReadWriteRemote args).ret ∧ (charSgdmaReadWriteRemote args).ret < 0 := by
  by_cases passes : args.check = 0
  · have failed := (mapRemotePages_neg_iff passes).mpr refused
    rw [charSgdmaReadWriteRemote_failed passes failed]
    exact ⟨rfl, mapRemotePages_ge args, failed⟩
  · have code := args.check_cases.resolve_left passes
    simp only [charSgdmaReadWriteRemote, ne_eq, passes, not_false_eq_true, ↓reduceIte]
    rw [code]
    exact ⟨trivial, by decide, by decide⟩

theorem charSgdmaReadWriteRemote_of_submits {args : RemoteArgs} (submits : args.Submits) :
    (charSgdmaReadWriteRemote args).submitted ≠ none := by
  have goes := (mapRemotePages_neg_iff submits.passes).not_left.mpr submits
  rw [charSgdmaReadWriteRemote_submits submits.passes goes]
  simp

/--
When `char_sgdma_read_write_remote` returns, every page has been released as often as
it was pinned if and only if no page was pinned at all, or every record got a page,
no two adjacent pages are equal and the lengths add up.
-/
theorem remotePins_balanced_iff (args : RemoteArgs) :
    Ledger.Balanced (charSgdmaReadWriteRemote args).refs ↔ args.GivesBack := by
  by_cases passes : args.check = 0
  swap
  · simp only [charSgdmaReadWriteRemote, ne_eq, passes, not_false_eq_true, ↓reduceIte]
    exact iff_of_true Ledger.balanced_nil (.refused passes)
  have built := mapsRemote args.kernel args.count.toNat_lt args.dma
  have failed := charSgdmaReadWriteRemote_failed passes
  have submits := charSgdmaReadWriteRemote_submits passes
  generalize mapRemotePages args.kernel args.count.toNat args.dma = result at built failed submits
  obtain ⟨ret, cb⟩ := result
  dsimp only at built failed submits
  cases built with
  | refused _ stops range =>
      rw [failed range.2]
      exact iff_of_true Ledger.balanced_nil (.noList stops)
  | early _ pages builds ends =>
      -- nothing is given back, with or without a transfer: the count of the pages is still 0
      have refs : (charSgdmaReadWriteRemote args).refs =
          ({ XdmaIoCb.cleared with pages := some pages } : XdmaIoCb).taken := by
        by_cases negative : ret < 0
        · rw [failed negative]
        · rw [submits negative]
          simp [charSgdmaUnmapUserBuf, XdmaIoCb.cleared]
      have fst : (remotePages args.kernel 0 args.dma.counted).1 = pages := by
        rw [ends]
      rw [refs, balanced_taken_iff rfl, ← fst, remotePages_fst_eq_nil_iff]
      apply (RemoteArgs.givesBack_iff_noneFirst passes builds _).symm
      intro all obtains
      exact absurd ends obtains.not_early
  | rejected _ pages _ builds obtains mismatch range held =>
      rw [failed range.2]
      dsimp only
      rw [balanced_taken_iff held, obtains.eq_nil_iff]
      apply (RemoteArgs.givesBack_iff_noneFirst passes builds _).symm
      intro all again noDuplicate
      rw [obtains.unique again] at noDuplicate
      rcases mismatch with duplicate | length
      · simp [noDuplicate] at duplicate
      · exact length
  | complete pages builds obtains noDuplicate sum =>
      rw [submits (by decide)]
      have short : pages.length ≤ u32 args.dma.chunksNr := by
        rw [obtains.length_eq]
        exact length_counted_le args.dma
      refine iff_of_true ?_ (.complete pages obtains noDuplicate sum)
      simp only [XdmaIoCb.taken, charSgdmaUnmapUserBuf, Option.getD_some,
        List.take_of_length_le short]
      exact Ledger.balanced_acquires_releases pages

/-- A device whose engine writes to the card, without any alignment. -/
def XdmaCdev.writer : XdmaCdev where
  magic := magicChar
  xdev := some ⟨magicDevice⟩
  engine := some ⟨magicEngine, .toDevice, 1, 1, false⟩

/-- A write of two records of 2048 bytes, where the second page cannot be pinned. -/
def RemoteArgs.secondFails : RemoteArgs where
  xcdev := some .writer
  dma := ⟨1, 0, 1, 0, 0, 4096, 2, [⟨0x8000, 2048, 2048⟩, ⟨0x9000, 0, 2048⟩]⟩
  count := 4096
  remoteAddr := 0
  write := true
  kernel :=
    { tableAlloc := true
      pagesAlloc := true
      getMm := fun _ => true
      getUserPagesRemote := fun index _ =>
        if index = 0 then .pinned (Page.ofPfn 8) else .error ⟨-14, by decide, by decide⟩ }
  xferSubmit := 4096

/-- The first page stays pinned when the second one cannot be pinned. -/
theorem remotePin_kept_after_error :
    ¬∀ args : RemoteArgs, Ledger.Balanced (charSgdmaReadWriteRemote args).refs := by
  intro claim
  have refs : (charSgdmaReadWriteRemote .secondFails).refs = [.acquire (Page.ofPfn 8)] := by
    decide +kernel
  have balanced := claim .secondFails (Page.ofPfn 8)
  rw [refs] at balanced
  exact absurd balanced (by decide)

end Acai
