import Acai.Driver.RemoteTransfer

/-!
# When the list of a remote transfer is complete

`map_remote_pages_to_sgl` should succeed on complete lists only: one page for each
record, no two adjacent pages equal, and lengths that add up to the length of the
transfer. It keeps its result in the variable that also holds the number of pages
that `get_user_pages_remote` returned, so that a lookup without a page ends the
function with the result 0, and it keeps the number of the records and their
offsets and lengths in 32 bits.
-/

namespace Acai

/-- A list that the function should succeed on, with the pages of its records. -/
structure CompleteList (args : RemoteArgs) (pages : List Page) : Prop where
  some_chunk : 0 < args.dma.chunksNr
  few : args.dma.chunksNr < 2 ^ 32
  obtains : args.kernel.Obtains 0 args.dma.chunks pages
  noDuplicate : hasDuplicate pages = false
  sum : (args.dma.chunks.map PageChunk.nbytes).sum = args.count.toNat

/-- The entry describes the bytes of the record in its page. -/
structure SgEntry.Describes (entry : SgEntry) (page : Page) (chunk : PageChunk) : Prop where
  page : entry.page = page
  offset : entry.offset.toNat = chunk.offset
  nbytes : entry.length.toNat = chunk.nbytes

/-- The scatterlist describes the records in their pages, one after another. -/
def XdmaIoCb.Lists (cb : XdmaIoCb) (pages : List Page) (chunks : List PageChunk) : Prop :=
  ∃ entries, cb.sgl = some entries ∧
    List.Forall₂ (fun entry described => entry.Describes described.1 described.2) entries
      (pages.zip chunks)

/-- `map_remote_pages_to_sgl` succeeds on complete lists only, and `char_sgdma_read_write_remote`
submits no other list. -/
structure MapsComplete (args : RemoteArgs) : Prop where
  success : (mapRemotePages args.kernel args.count.toNat args.dma).1 = 0 ↔
    ∃ pages, CompleteList args pages
  entries : ∀ pages, CompleteList args pages →
    (mapRemotePages args.kernel args.count.toNat args.dma).2.Lists pages args.dma.chunks
  pagesNr : ∀ pages, CompleteList args pages →
    (mapRemotePages args.kernel args.count.toNat args.dma).2.pagesNr = args.dma.chunksNr
  failure : (¬∃ pages, CompleteList args pages) →
    (mapRemotePages args.kernel args.count.toNat args.dma).1 < 0
  submits : ∀ cb, (charSgdmaReadWriteRemote args).submitted = some cb →
    ∃ pages, CompleteList args pages ∧ cb.Lists pages args.dma.chunks

/-- The number of the records, their offsets and their lengths fit into 32 bits. -/
structure FhHostIoctlDma.Fits (dma : FhHostIoctlDma) : Prop where
  few : dma.chunksNr < 2 ^ 32
  narrow : ∀ chunk ∈ dma.chunks, chunk.offset < 2 ^ 32 ∧ chunk.nbytes < 2 ^ 32

/-- No lookup ends without a page and without an error, and a list that is not refused anyway fits
into 32 bits. -/
structure NothingLost (args : RemoteArgs) : Prop where
  noMiss : ¬args.kernel.Misses 0 args.dma.counted
  fits : ∀ pages, u32 args.dma.chunksNr ≠ 0 → args.kernel.Obtains 0 args.dma.counted pages →
    hasDuplicate pages = false →
      ((args.dma.counted.map fun chunk => u32 chunk.nbytes).sum = args.count.toNat ∨
        args.dma.chunksNr < 2 ^ 32 ∧
          (args.dma.chunks.map PageChunk.nbytes).sum = args.count.toNat) →
        args.dma.Fits

theorem counted_eq {dma : FhHostIoctlDma} (length : dma.chunks.length = dma.chunksNr)
    (few : dma.chunksNr < 2 ^ 32) : dma.counted = dma.chunks := by
  rw [FhHostIoctlDma.counted, u32, Nat.mod_eq_of_lt few, ← length, List.take_length]

theorem sum_narrow_eq {chunks : List PageChunk}
    (narrow : ∀ chunk ∈ chunks, chunk.offset < 2 ^ 32 ∧ chunk.nbytes < 2 ^ 32) :
    (chunks.map fun chunk => u32 chunk.nbytes).sum = (chunks.map PageChunk.nbytes).sum := by
  congr 1
  apply List.map_congr_left
  intro chunk member
  exact Nat.mod_eq_of_lt (narrow chunk member).2

theorem describes_sgSetPage_iff {page : Page} {chunk : PageChunk} :
    (sgSetPage page (u32 chunk.nbytes) (u32 chunk.offset)).Describes page chunk ↔
      chunk.offset < 2 ^ 32 ∧ chunk.nbytes < 2 ^ 32 := by
  constructor
  · intro describes
    constructor
    · rw [← describes.offset]
      exact UInt32.toNat_lt _
    · rw [← describes.nbytes]
      exact UInt32.toNat_lt _
  · rintro ⟨offset, nbytes⟩
    refine ⟨rfl, ?_, ?_⟩
    · simpa [sgSetPage, u32] using offset
    · simpa [sgSetPage, u32] using nbytes

/-- The entries that the function sets describe the records exactly when these fit. -/
theorem lists_remoteEntries_iff {cb : XdmaIoCb} {pages : List Page} {chunks : List PageChunk}
    (length : pages.length = chunks.length)
    (sgl : cb.sgl = some (remoteEntries pages chunks)) :
    cb.Lists pages chunks ↔
      ∀ chunk ∈ chunks, chunk.offset < 2 ^ 32 ∧ chunk.nbytes < 2 ^ 32 := by
  have each : cb.Lists pages chunks ↔ ∀ described ∈ pages.zip chunks,
      described.2.offset < 2 ^ 32 ∧ described.2.nbytes < 2 ^ 32 := by
    simp only [XdmaIoCb.Lists, sgl, Option.some.injEq, exists_eq_left', remoteEntries,
      ← List.map_uncurry_zip_eq_zipWith, List.forall₂_map_left_iff, List.forall₂_same,
      Function.uncurry_def, describes_sgSetPage_iff]
  have snd : (pages.zip chunks).map Prod.snd = chunks := List.map_snd_zip length.ge
  rw [each]
  conv_rhs => rw [← snd]
  rw [List.forall_mem_map]

section Complete

variable {args : RemoteArgs}

theorem CompleteList.counted {pages : List Page} (complete : CompleteList args pages)
    (length : args.dma.chunks.length = args.dma.chunksNr) :
    args.dma.counted = args.dma.chunks :=
  counted_eq length complete.few

theorem CompleteList.pagesNr_ne {pages : List Page} (complete : CompleteList args pages) :
    u32 args.dma.chunksNr ≠ 0 := by
  have few := complete.few
  have some_chunk := complete.some_chunk
  rw [u32]
  omega

/-- A complete list gets through all lookups. -/
theorem CompleteList.obtains_counted {pages : List Page} (complete : CompleteList args pages)
    (length : args.dma.chunks.length = args.dma.chunksNr) :
    args.kernel.Obtains 0 args.dma.counted pages := by
  rw [complete.counted length]
  exact complete.obtains

/-- Either the list is complete and is built, or it is not complete and the function fails. -/
theorem mapRemotePages_of_nothingLost (tableAlloc : args.kernel.tableAlloc = true)
    (pagesAlloc : args.kernel.pagesAlloc = true)
    (length : args.dma.chunks.length = args.dma.chunksNr) (kept : NothingLost args) :
    (∃ pages, CompleteList args pages ∧ args.dma.Fits ∧
      mapRemotePages args.kernel args.count.toNat args.dma =
        (0, ⟨some pages, args.dma.chunksNr, some (remoteEntries pages args.dma.chunks)⟩)) ∨
    (¬∃ pages, CompleteList args pages) ∧
      (mapRemotePages args.kernel args.count.toNat args.dma).1 < 0 := by
  have built := mapsRemote args.kernel args.count.toNat_lt args.dma
  generalize mapRemotePages args.kernel args.count.toNat args.dma = result at built ⊢
  obtain ⟨ret, cb⟩ := result
  dsimp only at built ⊢
  cases built with
  | refused _ stops range =>
      refine Or.inr ⟨?_, range.2⟩
      rintro ⟨pages, complete⟩
      exact stops ⟨complete.pagesNr_ne, tableAlloc, pagesAlloc⟩
  | early _ pages builds ends =>
      refine Or.inr ⟨?_, ?_⟩
      · rintro ⟨all, complete⟩
        exact (complete.obtains_counted length).not_early ends
      · have nonpos := (remotePages_early_nonpos ends).2
        have nonzero : ret ≠ 0 := by
          rintro rfl
          exact kept.noMiss (remotePages_eq_zero_iff.mp (by rw [ends]))
        omega
  | rejected _ pages _ builds obtains mismatch range held =>
      refine Or.inr ⟨?_, range.2⟩
      rintro ⟨all, complete⟩
      have same := obtains.unique (complete.obtains_counted length)
      subst same
      have fits := kept.fits all builds.pagesNr obtains complete.noDuplicate
        (Or.inr ⟨complete.few, complete.sum⟩)
      rcases mismatch with duplicate | sum
      · simp [complete.noDuplicate] at duplicate
      · rw [complete.counted length, sum_narrow_eq fits.narrow] at sum
        exact sum complete.sum
  | complete pages builds obtains noDuplicate sum =>
      have fits := kept.fits pages builds.pagesNr obtains noDuplicate (Or.inl sum)
      have counted := counted_eq length fits.few
      have narrow : u32 args.dma.chunksNr = args.dma.chunksNr := Nat.mod_eq_of_lt fits.few
      have nonzero := builds.pagesNr
      rw [counted] at obtains sum ⊢
      rw [narrow] at nonzero ⊢
      rw [sum_narrow_eq fits.narrow] at sum
      exact Or.inl ⟨pages, ⟨Nat.pos_of_ne_zero nonzero, fits.few, obtains, noDuplicate, sum⟩, fits,
        rfl⟩

theorem mapsComplete_of_nothingLost (tableAlloc : args.kernel.tableAlloc = true)
    (pagesAlloc : args.kernel.pagesAlloc = true)
    (length : args.dma.chunks.length = args.dma.chunksNr) (kept : NothingLost args) :
    MapsComplete args := by
  have submitted := @charSgdmaReadWriteRemote_submitted args
  rcases mapRemotePages_of_nothingLost tableAlloc pagesAlloc length kept with
    ⟨pages, complete, fits, built⟩ | ⟨incomplete, negative⟩
  · have same : pages.length = args.dma.chunks.length := complete.obtains.length_eq
    have lists : (⟨some pages, args.dma.chunksNr,
        some (remoteEntries pages args.dma.chunks)⟩ : XdmaIoCb).Lists pages args.dma.chunks :=
      (lists_remoteEntries_iff same rfl).mpr fits.narrow
    rw [built] at submitted
    constructor
    · rw [built]
      exact iff_of_true rfl ⟨pages, complete⟩
    · intro others again
      rw [built, complete.obtains.unique again.obtains]
      exact lists
    · intro others _
      rw [built]
    · intro incomplete
      exact absurd ⟨pages, complete⟩ incomplete
    · intro cb submits
      rcases submitted submits with ⟨-, rfl⟩
      exact ⟨pages, complete, lists⟩
  · constructor
    · exact iff_of_false negative.ne incomplete
    · intro pages complete
      exact absurd ⟨pages, complete⟩ incomplete
    · intro pages complete
      exact absurd ⟨pages, complete⟩ incomplete
    · intro _
      exact negative
    · intro cb submits
      exact absurd negative (submitted submits).1

/-- A lookup without a page is taken for a success. -/
theorem not_misses_of_mapsComplete (tableAlloc : args.kernel.tableAlloc = true)
    (pagesAlloc : args.kernel.pagesAlloc = true)
    (length : args.dma.chunks.length = args.dma.chunksNr) (maps : MapsComplete args) :
    ¬args.kernel.Misses 0 args.dma.counted := by
  intro misses
  have zero := remotePages_eq_zero_iff.mpr misses
  have built := mapsRemote args.kernel args.count.toNat_lt args.dma
  have success := maps.success
  generalize mapRemotePages args.kernel args.count.toNat args.dma = result at built success
  obtain ⟨ret, cb⟩ := result
  dsimp only at built success
  cases built with
  | refused _ stops range =>
      -- there is no record at all
      by_cases none : u32 args.dma.chunksNr = 0
      · rw [FhHostIoctlDma.counted, none, List.take_zero] at misses
        exact RemoteKernel.not_misses_nil misses
      · exact stops ⟨none, tableAlloc, pagesAlloc⟩
  | early _ pages builds ends =>
      rw [ends] at zero
      cases zero
      rcases success.mp rfl with ⟨all, complete⟩
      exact (complete.obtains_counted length).not_early ends
  | rejected _ pages _ builds obtains mismatch range held => exact obtains.not_misses misses
  | complete pages builds obtains noDuplicate sum => exact obtains.not_misses misses

theorem nothingLost_of_mapsComplete (tableAlloc : args.kernel.tableAlloc = true)
    (pagesAlloc : args.kernel.pagesAlloc = true)
    (length : args.dma.chunks.length = args.dma.chunksNr) (maps : MapsComplete args) :
    NothingLost args := by
  refine ⟨not_misses_of_mapsComplete tableAlloc pagesAlloc length maps, ?_⟩
  intro pages nonzero obtains noDuplicate alternatives
  have built := mapsRemote args.kernel args.count.toNat_lt args.dma
  have success := maps.success
  have entries := maps.entries
  generalize mapRemotePages args.kernel args.count.toNat args.dma = result
    at built success entries
  obtain ⟨ret, cb⟩ := result
  dsimp only at built success entries
  cases built with
  | refused _ stops range => exact absurd ⟨nonzero, tableAlloc, pagesAlloc⟩ stops
  | early _ found builds ends => exact absurd ends obtains.not_early
  | rejected _ found _ builds again mismatch range held =>
      rw [obtains.unique again] at mismatch
      rcases alternatives with narrow | ⟨few, sum⟩
      · simp [noDuplicate, narrow] at mismatch
      · -- the list is complete, but its lengths are narrowed
        rw [counted_eq length few] at obtains
        have some_chunk : 0 < args.dma.chunksNr := by
          rw [u32] at nonzero
          omega
        exact absurd (success.mpr ⟨pages, some_chunk, few, obtains, noDuplicate, sum⟩) range.2.ne
  | complete found builds again noDuplicate' sum =>
      rcases success.mp rfl with ⟨others, complete⟩
      have same := again.unique (complete.obtains_counted length)
      subst same
      have lists := entries _ complete
      have sgl : (some (remoteEntries others args.dma.counted) : Option (List SgEntry)) =
          some (remoteEntries others args.dma.chunks) := by
        rw [complete.counted length]
      exact ⟨complete.few, (lists_remoteEntries_iff complete.obtains.length_eq sgl).mp lists⟩

end Complete

/--
With its allocations, `map_remote_pages_to_sgl` succeeds exactly on the complete lists, and
sets their entries, if and only if no lookup ends without a page and without an error, and
nothing of a list that is not refused anyway is lost in 32 bits.
-/
theorem mapRemotePages_complete_iff (args : RemoteArgs)
    (tableAlloc : args.kernel.tableAlloc = true) (pagesAlloc : args.kernel.pagesAlloc = true)
    (length : args.dma.chunks.length = args.dma.chunksNr) :
    MapsComplete args ↔ NothingLost args :=
  ⟨nothingLost_of_mapsComplete tableAlloc pagesAlloc length,
    mapsComplete_of_nothingLost tableAlloc pagesAlloc length⟩

def RemoteArgs.bothFound : RemoteArgs :=
  { RemoteArgs.secondFails with
    kernel :=
      { tableAlloc := true
        pagesAlloc := true
        getMm := fun _ => true
        getUserPagesRemote := fun index _ => .pinned (Page.ofPfn (index + 8)) } }

theorem mapRemotePages_complete_bothFound :
    (mapRemotePages RemoteArgs.bothFound.kernel 4096 RemoteArgs.bothFound.dma).1 = 0 ∧
      MapsComplete .bothFound := by
  refine ⟨by decide +kernel, (mapRemotePages_complete_iff .bothFound rfl rfl rfl).mpr ?_⟩
  constructor
  · intro misses
    exact absurd (remotePages_eq_zero_iff.mpr misses) (by decide +kernel)
  · intro _ _ _ _ _
    exact ⟨by decide, by decide⟩

/-- The two records when the second page is not there and no error is reported. -/
def RemoteArgs.secondMissing : RemoteArgs :=
  { RemoteArgs.secondFails with
    kernel :=
      { tableAlloc := true
        pagesAlloc := true
        getMm := fun _ => true
        getUserPagesRemote := fun index _ =>
          if index = 0 then .pinned (Page.ofPfn 8) else .notPinned } }

/-- A list with a page missing is taken for a success, and is submitted. -/
theorem remoteList_submitted_incomplete :
    ¬∀ args : RemoteArgs, args.kernel.tableAlloc = true → args.kernel.pagesAlloc = true →
      (∀ index, args.kernel.getMm index = true) → args.dma.chunks.length = args.dma.chunksNr →
        MapsComplete args := by
  intro claim
  have maps := claim .secondMissing rfl rfl (fun _ => rfl) rfl
  have submitted : (charSgdmaReadWriteRemote .secondMissing).submitted =
      some { XdmaIoCb.cleared with pages := some [Page.ofPfn 8] } := by
    decide +kernel
  rcases maps.submits _ submitted with ⟨pages, complete, -⟩
  have early : (remotePages RemoteArgs.secondMissing.kernel 0
      RemoteArgs.secondMissing.dma.chunks).2 = some 0 := by
    decide +kernel
  exact complete.obtains.not_misses (remotePages_eq_zero_iff.mp early)

end Acai
