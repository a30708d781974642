import Mathlib.Data.Set.Basic
import Mathlib.Data.Nat.ModEq
import Acai.Escape.Layout

/-!
# Pages and scatterlists

This file models what the drivers use of the kernel's memory interface: page
descriptors, their physical addresses, and scatterlists. A scatterlist is the list
of its entries; `sg_next` goes to the tail, and the list ends after the entry that
is marked as its last.

Sets of memory are given by the physical addresses of their pages. The guest's stub
and the plain driver both cut a user buffer at its page boundaries with the same
loop, `cutBuffer`; what they make of the pieces differs.
-/

namespace Acai

/-- A page descriptor (`struct page`), named by its page frame number. -/
@[ext]
structure Page where
  pfn : ℕ
  pfn_lt : pfn < 2 ^ 52
  deriving DecidableEq

namespace Page

def ofPfn (pfn : ℕ) : Page := ⟨pfn % 2 ^ 52, Nat.mod_lt _ (by decide)⟩

@[simp]
theorem ofPfn_pfn (page : Page) : ofPfn page.pfn = page := by
  cases page with
  | mk pfn pfn_lt => simp only [ofPfn, Nat.mod_eq_of_lt pfn_lt]

def toPhys (page : Page) : ℕ := page.pfn * pageSize

theorem toPhys_lt (page : Page) : page.toPhys < 2 ^ 64 := by
  have pfn_lt := page.pfn_lt
  simp only [toPhys, pageSize]
  omega

end Page

structure SgEntry where
  page : Page
  length : UInt32
  offset : UInt32
  deriving DecidableEq

/-- `sg_set_page` on a fresh entry. -/
def sgSetPage (page : Page) (length offset : ℕ) : SgEntry where
  page := page
  length := UInt32.ofNat length
  offset := UInt32.ofNat offset

def offsetInPage (address : ℕ) : ℕ := address % pageSize

/-- The number of pages that a block of `length` bytes from the start of a page covers. -/
def pagesCovered (length : ℕ) : ℕ := (length + pageSize - 1) / pageSize

theorem lt_pagesCovered_iff {index length : ℕ} :
    index < pagesCovered length ↔ index * pageSize < length := by
  simp only [pagesCovered, pageSize]
  omega

/-- The physical address of the page `index` pages after `base`. -/
def granuleAt (base index : ℕ) : ℕ := u64 (base + index * pageSize)

theorem granuleAt_zero (page : Page) : granuleAt page.toPhys 0 = page.toPhys := by
  have bound := page.toPhys_lt
  simp only [granuleAt, u64, Nat.zero_mul, Nat.add_zero]
  exact Nat.mod_eq_of_lt bound

theorem granuleAt_granuleAt (base first second : ℕ) :
    granuleAt (granuleAt base first) second = granuleAt base (first + second) := by
  simp only [granuleAt, u64]
  rw [Nat.mod_add_mod, Nat.add_mul, Nat.add_assoc]

def pageOf (address : ℕ) : ℕ := address - offsetInPage address

theorem pageOf_add (page : Page) (distance : ℕ) :
    pageOf (u64 (page.toPhys + distance)) = granuleAt page.toPhys (distance / pageSize) := by
  simp only [pageOf, offsetInPage, granuleAt, u64, Page.toPhys, pageSize]
  omega

/-! ## Cutting a user buffer at page boundaries -/

/-- The pages that a buffer touches, as the drivers compute it in 64 bits. -/
def pageCount (buf len : ℕ) : ℕ :=
  u64 (u64 (buf + len + pageSize - 1) + (2 ^ 64 - (buf - offsetInPage buf))) / pageSize

theorem pageCount_eq {buf len : ℕ} (inSpace : buf < 2 ^ 64) (small : len < 2 ^ 63) :
    pageCount buf len = pagesCovered (offsetInPage buf + len) := by
  simp only [pageCount, u64, offsetInPage, pagesCovered, pageSize]
  omega

/-- The part of a buffer that lies in one page. -/
structure Piece where
  page : Page
  offset : ℕ
  nbytes : ℕ
  deriving DecidableEq

/-- The loop that cuts a buffer; it also gives the address and the length that remain. -/
def cutBuffer : List Page → ℕ → ℕ → List Piece × ℕ × ℕ
  | [], buf, len => ([], buf, len)
  | page :: pages, buf, len =>
      let offset := offsetInPage buf
      let nbytes := min (u32 (pageSize - offset)) (u32 len)
      let (pieces, rest) := cutBuffer pages (u64 (buf + nbytes)) (len - nbytes)
      (⟨page, offset, nbytes⟩ :: pieces, rest)

theorem cutBuffer_pages (pages : List Page) (buf len : ℕ) :
    (cutBuffer pages buf len).1.map Piece.page = pages := by
  induction pages generalizing buf len with
  | nil => rfl
  | cons page pages ih => simp [cutBuffer, ih]

theorem length_cutBuffer (pages : List Page) (buf len : ℕ) :
    (cutBuffer pages buf len).1.length = pages.length := by
  simpa using congrArg List.length (cutBuffer_pages pages buf len)

theorem cutBuffer_inPage {pages : List Page} {buf len : ℕ} {piece : Piece}
    (piece_mem : piece ∈ (cutBuffer pages buf len).1) :
    piece.offset + piece.nbytes ≤ pageSize := by
  induction pages generalizing buf len with
  | nil => simp [cutBuffer] at piece_mem
  | cons page pages ih =>
      simp only [cutBuffer, List.mem_cons] at piece_mem
      rcases piece_mem with rfl | later
      · simp only [offsetInPage, u32, pageSize]
        omega
      · exact ih later

/-- With the right number of pages, the whole buffer is cut into nonempty pieces. -/
theorem cutBuffer_complete {pages : List Page} {buf len : ℕ} (small : len < 2 ^ 32)
    (enough : pages.length = pagesCovered (offsetInPage buf + len))
    (started : 0 < len ∨ offsetInPage buf = 0) :
    (cutBuffer pages buf len).2.2 = 0 ∧
      ∀ piece ∈ (cutBuffer pages buf len).1, 0 < piece.nbytes := by
  induction pages generalizing buf len with
  | nil =>
      simp only [List.length_nil, pagesCovered, pageSize, offsetInPage] at enough
      refine ⟨?_, by simp [cutBuffer]⟩
      simp only [cutBuffer]
      omega
  | cons page pages ih =>
      rcases le_or_gt len (pageSize - offsetInPage buf) with last | more
      · -- the rest of the buffer lies in this page, so there is no further page
        have none : pages = [] := by
          simp only [List.length_cons, pagesCovered, pageSize, offsetInPage] at enough last
          exact List.length_eq_zero_iff.mp (by omega)
        have nbytes : min (u32 (pageSize - offsetInPage buf)) (u32 len) = len := by
          simp only [u32, pageSize, offsetInPage] at last ⊢
          omega
        have pos : 0 < len := by
          simp only [List.length_cons, pagesCovered, pageSize] at enough
          omega
        simp [cutBuffer, none, nbytes, pos]
      · have nbytes : min (u32 (pageSize - offsetInPage buf)) (u32 len) =
            pageSize - offsetInPage buf := by
          simp only [u32, pageSize, offsetInPage] at more ⊢
          omega
        have aligned : offsetInPage (u64 (buf + (pageSize - offsetInPage buf))) = 0 := by
          simp only [offsetInPage, u64, pageSize]
          omega
        have offset_lt : offsetInPage buf < pageSize := Nat.mod_lt _ (by decide)
        have rest := @ih (u64 (buf + (pageSize - offsetInPage buf)))
          (len - (pageSize - offsetInPage buf)) (by omega)
          (by
            rw [aligned]
            simp only [List.length_cons, pagesCovered, pageSize] at enough more offset_lt ⊢
            omega)
          (Or.inr aligned)
        simp only [cutBuffer, nbytes, List.mem_cons, forall_eq_or_imp]
        exact ⟨rest.1, by omega, rest.2⟩

end Acai
