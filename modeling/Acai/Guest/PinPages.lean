import Acai.Kernel.Scatterlist

/-!
# Pinning a user buffer in the guest

`fh_pin_pages` pins the pages of a user buffer and describes each of them by a
record of its page frame number and the bytes of the buffer that lie in it. The
kernel's part is a parameter: whether the two allocations succeed, and what
`get_user_pages_fast` returns.
-/

namespace Acai

/-- What the kernel does for one call of `fh_pin_pages`. -/
structure PinKernel where
  pinPagesAlloc : Bool
  pagesAlloc : Bool
  /-- A negative result of `get_user_pages_fast`, or the pages that it has pinned. -/
  getUserPagesFast : Except { rv : ℤ // rv < 0 } (List Page)

/-- The result of `fh_pin_pages` (`struct pin_pages_struct`). -/
structure PinPages where
  /-- The address right behind the buffer. -/
  userBuf : ℕ
  len : ℕ
  pages : List Page
  pagesNr : ℕ
  pageChunks : List PageChunk
  length_pages : pages.length = pagesNr
  length_pageChunks : pageChunks.length = pagesNr

def fhGetPageCount (buf len : ℕ) : ℕ := pageCount buf len

/-- The check for duplicates: no two pages next to each other are the same. -/
def hasDuplicate : List Page → Bool
  | first :: second :: rest => first == second || hasDuplicate (second :: rest)
  | _ => false

def Piece.toChunk (piece : Piece) : PageChunk where
  addr := piece.page.pfn
  offset := piece.offset
  nbytes := piece.nbytes

theorem length_toChunk_cutBuffer {pages : List Page} {pagesNr : ℕ} (buf len : ℕ)
    (length : pages.length = pagesNr) :
    ((cutBuffer pages buf len).1.map Piece.toChunk).length = pagesNr := by
  rw [List.length_map, length_cutBuffer, length]

def fhPinPages (kernel : PinKernel) (buf count : ℕ) : Except ℤ PinPages :=
  let pagesNr := fhGetPageCount buf count
  if pagesNr = 0 then .error (-Errno.EINVAL.code)
  else if !kernel.pinPagesAlloc then .error (-Errno.ENOMEM.code)
  else if !kernel.pagesAlloc then .error (-Errno.ENOMEM.code)
  else
    match kernel.getUserPagesFast with
    | .error rv => .error rv.val
    | .ok pages =>
        if length : pages.length = pagesNr then
          if hasDuplicate pages then .error (-Errno.EFAULT.code)
          else if (cutBuffer pages buf count).2.2 ≠ 0 then .error (-Errno.EINVAL.code)
          else
            .ok
              { userBuf := (cutBuffer pages buf count).2.1
                len := count
                pages := pages
                pagesNr := pagesNr
                pageChunks := (cutBuffer pages buf count).1.map Piece.toChunk
                length_pages := length
                length_pageChunks := length_toChunk_cutBuffer buf count length }
        else .error (-Errno.EFAULT.code)

/-- Everything that a successful call of `fh_pin_pages` has established. -/
structure Pinned (kernel : PinKernel) (buf count : ℕ) (pinned : PinPages) : Prop where
  pages : kernel.getUserPagesFast = .ok pinned.pages
  length : pinned.pages.length = fhGetPageCount buf count
  noDuplicate : hasDuplicate pinned.pages = false
  chunks : pinned.pageChunks = (cutBuffer pinned.pages buf count).1.map Piece.toChunk
  complete : (cutBuffer pinned.pages buf count).2.2 = 0
  len : pinned.len = count
  pos : 0 < pinned.pagesNr

theorem fhPinPages_ok {kernel : PinKernel} {buf count : ℕ} {pinned : PinPages}
    (success : fhPinPages kernel buf count = .ok pinned) : Pinned kernel buf count pinned := by
  simp only [fhPinPages] at success
  split at success
  · cases success
  rename_i pos
  split at success
  · cases success
  split at success
  · cases success
  split at success
  · cases success
  rename_i pages pages_eq
  split at success
  · rename_i length
    split at success
    · cases success
    rename_i noDuplicate
    split at success
    · cases success
    rename_i complete
    cases success
    exact
      { pages := pages_eq
        length := length
        noDuplicate := by simpa using noDuplicate
        chunks := rfl
        complete := not_not.mp complete
        len := rfl
        pos := Nat.pos_of_ne_zero pos }
  · cases success

theorem fhPinPages_of_pages {kernel : PinKernel} {buf count : ℕ} {pages : List Page}
    (some_page : fhGetPageCount buf count ≠ 0) (pinPagesAlloc : kernel.pinPagesAlloc = true)
    (pagesAlloc : kernel.pagesAlloc = true) (pages_eq : kernel.getUserPagesFast = .ok pages)
    (length : pages.length = fhGetPageCount buf count) (noDuplicate : hasDuplicate pages = false)
    (complete : (cutBuffer pages buf count).2.2 = 0) :
    ∃ pinned, fhPinPages kernel buf count = .ok pinned := by
  simp only [fhPinPages, some_page, pinPagesAlloc, pagesAlloc, pages_eq, length, noDuplicate,
    complete, Bool.not_true, Bool.false_eq_true, not_true_eq_false, ne_eq, ↓reduceIte,
    ↓reduceDIte]
  exact ⟨_, rfl⟩

theorem fhPinPages_error {kernel : PinKernel} {buf count : ℕ} {ret : ℤ}
    (failure : fhPinPages kernel buf count = .error ret) : ret < 0 := by
  simp only [fhPinPages] at failure
  split at failure
  · cases failure
    decide
  split at failure
  · cases failure
    decide
  split at failure
  · cases failure
    decide
  split at failure
  · rename_i rv _
    cases failure
    exact rv.property
  split at failure
  · split at failure
    · cases failure
      decide
    split at failure
    · cases failure
      decide
    · cases failure
  · cases failure
    decide

theorem Pinned.addr_eq {kernel : PinKernel} {buf count : ℕ} {pinned : PinPages}
    (result : Pinned kernel buf count pinned) :
    pinned.pageChunks.map PageChunk.addr = pinned.pages.map Page.pfn := by
  have pages := cutBuffer_pages pinned.pages buf count
  rw [result.chunks, List.map_map]
  conv_rhs => rw [← pages, List.map_map]
  rfl

theorem Pinned.chunk_inPage {kernel : PinKernel} {buf count : ℕ} {pinned : PinPages}
    (result : Pinned kernel buf count pinned) (inSpace : buf < 2 ^ 64) (pos : 0 < count)
    (small : count < 2 ^ 32) {chunk : PageChunk} (chunk_mem : chunk ∈ pinned.pageChunks) :
    0 < chunk.nbytes ∧ chunk.offset + chunk.nbytes ≤ pageSize := by
  rw [result.chunks] at chunk_mem
  rcases List.mem_map.mp chunk_mem with ⟨piece, piece_mem, rfl⟩
  have length := result.length
  rw [fhGetPageCount, pageCount_eq inSpace (by omega)] at length
  have complete := cutBuffer_complete small length (Or.inl pos)
  exact ⟨complete.2 piece piece_mem, cutBuffer_inPage piece_mem⟩

def PinKernel.pinsTwo : PinKernel where
  pinPagesAlloc := true
  pagesAlloc := true
  getUserPagesFast := .ok [Page.ofPfn 3, Page.ofPfn 4]

def pinnedTwo : PinPages where
  userBuf := 0x2800
  len := 4096
  pages := [Page.ofPfn 3, Page.ofPfn 4]
  pagesNr := 2
  pageChunks := [⟨3, 0x800, 0x800⟩, ⟨4, 0, 0x800⟩]
  length_pages := rfl
  length_pageChunks := rfl

end Acai
