import Acai.Guest.FileOps
import Acai.Lib.Ledger

/-!
# Page references in the guest

`get_user_pages_fast` takes a reference to every page that it pins, and `put_page`
gives one back. This file follows the references through `fh_pin_pages` and
`char_sgdma_read_write`, with both functions as before and the references that they
take and give back beside their results.

`fh_unpin_pages` finds the pages in the structure that it gets. On the error paths
of `fh_pin_pages` the structure is still cleared, so that nothing is given back, and
the check for the size of the escape page in `char_sgdma_read_write` returns without
calling it.
-/

namespace Acai

/-- The fields of `struct pin_pages_struct` that `fh_unpin_pages` reads; `none` is a null
pointer. -/
structure PinFields where
  pages : Option (List Page)
  pagesNr : ℕ

/-- The structure as `memset` leaves it. -/
def PinFields.cleared : PinFields := ⟨none, 0⟩

def PinPages.fields (pinned : PinPages) : PinFields := ⟨some pinned.pages, pinned.pagesNr⟩

/-- `fh_unpin_pages`, by the references that it gives back. -/
def fhUnpinPages : Option PinFields → List (Ledger.Event Page)
  | none => []
  | some pinned =>
      match pinned.pages with
      | none => []
      | some pages => (pages.take pinned.pagesNr).map .release

/-- `fh_pin_pages` with the references that it takes and gives back. -/
def fhPinPagesRefs (kernel : PinKernel) (buf count : ℕ) :
    Except ℤ PinPages × List (Ledger.Event Page) :=
  let pagesNr := fhGetPageCount buf count
  if pagesNr = 0 then (.error (-Errno.EINVAL.code), [])
  else if !kernel.pinPagesAlloc then (.error (-Errno.ENOMEM.code), fhUnpinPages none)
  else if !kernel.pagesAlloc then (.error (-Errno.ENOMEM.code), fhUnpinPages (some .cleared))
  else
    match kernel.getUserPagesFast with
    | .error rv => (.error rv.val, fhUnpinPages (some .cleared))
    | .ok pages =>
        let taken := pages.map Ledger.Event.acquire
        if length : pages.length = pagesNr then
          if hasDuplicate pages then
            (.error (-Errno.EFAULT.code), taken ++ fhUnpinPages (some .cleared))
          else if (cutBuffer pages buf count).2.2 ≠ 0 then
            (.error (-Errno.EINVAL.code), taken ++ fhUnpinPages (some .cleared))
          else
            (.ok
              { userBuf := (cutBuffer pages buf count).2.1
                len := count
                pages := pages
                pagesNr := pagesNr
                pageChunks := (cutBuffer pages buf count).1.map Piece.toChunk
                length_pages := length
                length_pageChunks := length_toChunk_cutBuffer buf count length }, taken)
        else (.error (-Errno.EFAULT.code), taken ++ fhUnpinPages (some .cleared))

/-- `char_sgdma_read_write` with the references that it takes and gives back. -/
def charSgdmaReadWriteRefs (fuel : ℕ) (args : SgdmaArgs) :
    Prog (ℤ × List (Ledger.Event Page)) :=
  match fhPinPagesRefs args.kernel args.buf.toNat args.count.toNat with
  | (.error ret, refs) => pure (ret, refs)
  | (.ok pinned, refs) =>
      if args.escapeSize < ActionDma.size + pinned.pagesNr * PageChunk.size then
        pure (-Errno.ENOMEM.code, refs)
      else do
        let ret ← sgdmaLocked fuel args pinned
        pure (ret, refs ++ fhUnpinPages (some pinned.fields))

/-! ## The functions without their references -/

theorem fhPinPagesRefs_fst (kernel : PinKernel) (buf count : ℕ) :
    (fhPinPagesRefs kernel buf count).1 = fhPinPages kernel buf count := by
  simp only [fhPinPagesRefs, fhPinPages]
  split
  · rfl
  split
  · rfl
  split
  · rfl
  cases kernel.getUserPagesFast with
  | error rv => rfl
  | ok pages =>
      dsimp only
      split
      · split
        · rfl
        split
        · rfl
        · rfl
      · rfl

theorem run_charSgdmaReadWriteRefs_fst {σ : Type} (answer : σ → ByteMem → σ × ByteMem) (fuel : ℕ)
    (args : SgdmaArgs) (machine : Machine σ) :
    (Prod.fst <$> charSgdmaReadWriteRefs fuel args).run answer machine =
      (charSgdmaReadWrite fuel args).run answer machine := by
  have pins := fhPinPagesRefs_fst args.kernel args.buf.toNat args.count.toNat
  rw [charSgdmaReadWrite, ← pins, charSgdmaReadWriteRefs]
  generalize fhPinPagesRefs args.kernel args.buf.toNat args.count.toNat = pinning
  obtain ⟨result, refs⟩ := pinning
  cases result with
  | error ret => rfl
  | ok pinned =>
      dsimp only
      split
      · rfl
      · rw [Prog.map_def, Prog.run_bind, Prog.run_bind]
        generalize (sgdmaLocked fuel args pinned).run answer machine = outcome
        obtain ⟨result, machine'⟩ := outcome
        cases result <;> rfl

/-! ## Taken and given back -/

/-- The pages that one call of `fh_pin_pages` pins. -/
def PinKernel.taken (kernel : PinKernel) (buf count : ℕ) : List Page :=
  if fhGetPageCount buf count = 0 then []
  else if !kernel.pinPagesAlloc then []
  else if !kernel.pagesAlloc then []
  else
    match kernel.getUserPagesFast with
    | .error _ => []
    | .ok pages => pages

/-- Whether it succeeds or fails, `fh_pin_pages` keeps all the references that it has taken. -/
theorem fhPinPagesRefs_snd (kernel : PinKernel) (buf count : ℕ) :
    (fhPinPagesRefs kernel buf count).2 = (kernel.taken buf count).map .acquire := by
  have cleared : fhUnpinPages (some .cleared) = [] := rfl
  simp only [fhPinPagesRefs, PinKernel.taken, cleared, List.append_nil]
  split
  · rfl
  split
  · rfl
  split
  · rfl
  cases kernel.getUserPagesFast with
  | error rv => rfl
  | ok pages =>
      dsimp only
      split
      · split
        · rfl
        split
        · rfl
        · rfl
      · rfl

theorem taken_of_ok {kernel : PinKernel} {buf count : ℕ} {pinned : PinPages}
    (success : fhPinPages kernel buf count = .ok pinned) :
    kernel.taken buf count = pinned.pages := by
  have pages := (fhPinPages_ok success).pages
  simp only [fhPinPages] at success
  simp only [PinKernel.taken]
  split at success
  · cases success
  rename_i some_page
  split at success
  · cases success
  rename_i pinPagesAlloc
  split at success
  · cases success
  rename_i pagesAlloc
  rw [if_neg some_page, if_neg pinPagesAlloc, if_neg pagesAlloc, pages]

/-- The checks behind `get_user_pages_fast` pass. -/
structure PinChecks (kernel : PinKernel) (buf count : ℕ) : Prop where
  all : (kernel.taken buf count).length = fhGetPageCount buf count
  noDuplicate : hasDuplicate (kernel.taken buf count) = false
  complete : (cutBuffer (kernel.taken buf count) buf count).2.2 = 0

theorem pinChecks_of_ok {kernel : PinKernel} {buf count : ℕ} {pinned : PinPages}
    (success : fhPinPages kernel buf count = .ok pinned) : PinChecks kernel buf count := by
  have result := fhPinPages_ok success
  have taken := taken_of_ok success
  constructor
  · rw [taken]
    exact result.length
  · rw [taken]
    exact result.noDuplicate
  · rw [taken]
    exact result.complete

theorem fhPinPages_of_checks {kernel : PinKernel} {buf count : ℕ}
    (checks : PinChecks kernel buf count) (some_taken : kernel.taken buf count ≠ []) :
    ∃ pinned, fhPinPages kernel buf count = .ok pinned := by
  have taken_eq := PinKernel.taken.eq_1 kernel buf count
  split at taken_eq
  · exact absurd taken_eq some_taken
  rename_i some_page
  split at taken_eq
  · exact absurd taken_eq some_taken
  rename_i pinPagesAlloc
  split at taken_eq
  · exact absurd taken_eq some_taken
  rename_i pagesAlloc
  split at taken_eq
  · exact absurd taken_eq some_taken
  rename_i pages pages_eq
  rw [← taken_eq] at pages_eq
  exact fhPinPages_of_pages some_page (by simpa using pinPagesAlloc) (by simpa using pagesAlloc)
    pages_eq checks.all checks.noDuplicate checks.complete

/-- `fh_pin_pages` succeeds and the escape page has room for the records. -/
structure GivesBack (args : SgdmaArgs) : Prop where
  checks : PinChecks args.kernel args.buf.toNat args.count.toNat
  room : ActionDma.size + fhGetPageCount args.buf.toNat args.count.toNat * PageChunk.size ≤
    args.escapeSize

/-- References that are kept are balanced only if none was taken. -/
theorem balanced_kept_iff {args : SgdmaArgs}
    (fails : args.kernel.taken args.buf.toNat args.count.toNat ≠ [] → ¬GivesBack args) :
    Ledger.Balanced ((args.kernel.taken args.buf.toNat args.count.toNat).map .acquire) ↔
      args.kernel.taken args.buf.toNat args.count.toNat = [] ∨ GivesBack args := by
  rw [Ledger.balanced_acquires_iff]
  constructor
  · exact Or.inl
  · rintro (none | givesBack)
    · exact none
    · by_contra some_taken
      exact fails some_taken givesBack

/--
When `fh_pin_pages` fails, the references are balanced if and only if it has taken
none. When `char_sgdma_read_write` returns, whatever the host did, they are balanced
if and only if none was taken, or all pages were pinned and no check failed.
-/
theorem pins_balanced_iff (args : SgdmaArgs) :
    (∀ ret, fhPinPages args.kernel args.buf.toNat args.count.toNat = .error ret →
      (Ledger.Balanced (fhPinPagesRefs args.kernel args.buf.toNat args.count.toNat).2 ↔
        args.kernel.taken args.buf.toNat args.count.toNat = [])) ∧
    ∀ (σ : Type) (answer : σ → ByteMem → σ × ByteMem) (machine machine' : Machine σ) (fuel : ℕ)
      (ret : ℤ) (refs : List (Ledger.Event Page)),
      (charSgdmaReadWriteRefs fuel args).run answer machine = (.done (ret, refs), machine') →
        (Ledger.Balanced refs ↔
          args.kernel.taken args.buf.toNat args.count.toNat = [] ∨ GivesBack args) := by
  constructor
  · intro ret _
    rw [fhPinPagesRefs_snd]
    exact Ledger.balanced_acquires_iff
  intro σ answer machine machine' fuel ret refs returns
  have pins := fhPinPagesRefs_fst args.kernel args.buf.toNat args.count.toNat
  have takes := fhPinPagesRefs_snd args.kernel args.buf.toNat args.count.toNat
  rw [charSgdmaReadWriteRefs] at returns
  generalize fhPinPagesRefs args.kernel args.buf.toNat args.count.toNat = pinning at *
  obtain ⟨result, held⟩ := pinning
  dsimp only at pins takes
  subst takes
  cases result with
  | error error =>
      cases returns
      apply balanced_kept_iff
      intro some_taken givesBack
      rcases fhPinPages_of_checks givesBack.checks some_taken with ⟨pinned, success⟩
      rw [← pins] at success
      cases success
  | ok pinned =>
      have success := pins.symm
      have result := fhPinPages_ok success
      have taken := taken_of_ok success
      have pagesNr : pinned.pagesNr = fhGetPageCount args.buf.toNat args.count.toNat :=
        pinned.length_pages.symm.trans result.length
      dsimp only at returns
      split at returns
      · -- the records do not fit, and nothing is given back
        rename_i small
        cases returns
        apply balanced_kept_iff
        intro _ givesBack
        have room := givesBack.room
        rw [pagesNr] at small
        omega
      · rename_i room
        rw [Prog.run_bind] at returns
        generalize (sgdmaLocked fuel args pinned).run answer machine = outcome at returns
        obtain ⟨result, final⟩ := outcome
        cases result with
        | deadlock => cases returns
        | diverged => cases returns
        | done value =>
            cases returns
            have balanced := Ledger.balanced_acquires_releases pinned.pages
            have given : fhUnpinPages (some pinned.fields) = pinned.pages.map .release := by
              rw [fhUnpinPages, PinPages.fields]
              dsimp only
              rw [← pinned.length_pages, List.take_length]
            rw [taken, given]
            rw [pagesNr] at room
            exact iff_of_true balanced (Or.inr ⟨pinChecks_of_ok success, not_lt.mp room⟩)

def SgdmaArgs.twoPages : SgdmaArgs where
  fd := 3
  buf := 0x1800
  count := 4096
  phyAddr := 0
  doWrite := true
  doAperture := false
  kernel := .pinsTwo
  escapeSize := 4096

/-- The host has no mapping for the pages, and the transfer fails; the pages are given back. -/
theorem pins_balanced_twoPages :
    ∃ refs final,
      (charSgdmaReadWriteRefs 5 .twoPages).run Host.onEscape .cleared = (.done (-6, refs), final) ∧
        Ledger.Balanced refs := by
  obtain ⟨result, final, runs⟩ : ∃ result final,
      (charSgdmaReadWriteRefs 5 .twoPages).run Host.onEscape .cleared = (result, final) :=
    ⟨_, _, rfl⟩
  have returns : ((charSgdmaReadWriteRefs 5 .twoPages).run Host.onEscape .cleared).1 =
      .done (-6, [.acquire (Page.ofPfn 3), .acquire (Page.ofPfn 4), .release (Page.ofPfn 3),
        .release (Page.ofPfn 4)]) := by
    decide +kernel
  rw [runs] at returns
  dsimp only at returns
  subst returns
  exact ⟨_, _, runs, ((pins_balanced_iff .twoPages).2 Host Host.onEscape .cleared _ 5 _ _ runs).mpr
    (Or.inr ⟨⟨by decide, by decide, by decide⟩, by decide⟩)⟩

/-- The buffer of two pages when only its first page can be pinned. -/
def SgdmaArgs.onePinned : SgdmaArgs :=
  { SgdmaArgs.twoPages with kernel := ⟨true, true, .ok [Page.ofPfn 3]⟩ }

/-- A page stays pinned when the pages of a buffer are not all pinned. -/
theorem pin_kept_after_error :
    ¬∀ args : SgdmaArgs,
      (∀ ret, fhPinPages args.kernel args.buf.toNat args.count.toNat = .error ret →
        Ledger.Balanced (fhPinPagesRefs args.kernel args.buf.toNat args.count.toNat).2) ∧
      ∀ (σ : Type) (answer : σ → ByteMem → σ × ByteMem) (machine machine' : Machine σ) (fuel : ℕ)
        (ret : ℤ) (refs : List (Ledger.Event Page)),
        (charSgdmaReadWriteRefs fuel args).run answer machine = (.done (ret, refs), machine') →
          Ledger.Balanced refs := by
  intro claim
  have balanced := (claim .onePinned).2 Host Host.onEscape .cleared .cleared 0 (-14)
    [.acquire (Page.ofPfn 3)] rfl
  exact absurd (balanced (Page.ofPfn 3)) (by decide)

end Acai
