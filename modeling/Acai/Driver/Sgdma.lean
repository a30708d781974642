import Acai.Guest.PinPages
import Acai.Manager.Comm

/-!
# Scatterlists in the host driver

The host driver builds the scatterlist of a transfer in one of two ways. The plain
path pins a user buffer of the calling process and cuts it at its page boundaries.
The remote path gets a list of records from the manager, one for each page of a
buffer in the guest, and looks up each page in the address space of the guest's
process.
-/

namespace Acai

/-- What the kernel does for one call of `char_sgdma_map_user_buf_to_sgl`. -/
structure PlainKernel where
  tableAlloc : Bool
  pagesAlloc : Bool
  getUserPagesFast : Except { rv : ℤ // rv < 0 } (List Page)

def Piece.toEntry (piece : Piece) : SgEntry := sgSetPage piece.page piece.nbytes piece.offset

def charSgdmaMapUserBufToSgl (kernel : PlainKernel) (buf len : ℕ) : Except ℤ (List SgEntry) :=
  let pagesNr := u32 (pageCount buf len)
  if pagesNr = 0 then .error (-Errno.EINVAL.code)
  else if !kernel.tableAlloc then .error (-Errno.ENOMEM.code)
  else if !kernel.pagesAlloc then .error (-Errno.ENOMEM.code)
  else
    match kernel.getUserPagesFast with
    | .error rv => .error rv.val
    | .ok pages =>
        if pages.length ≠ pagesNr then .error (-Errno.EFAULT.code)
        else if hasDuplicate pages then .error (-Errno.EFAULT.code)
        else if (cutBuffer pages buf len).2.2 ≠ 0 then .error (-Errno.EINVAL.code)
        else .ok ((cutBuffer pages buf len).1.map Piece.toEntry)

inductive RemotePage where
  /-- A negative result, which the caller keeps in an `int`. -/
  | error (rv : { rv : ℤ // -2 ^ 31 ≤ rv ∧ rv < 0 })
  | notPinned
  | pinned (page : Page)

/-- What the kernel does for one call of `map_remote_pages_to_sgl`. The lookups are given by the
iteration of the loop and the address that is looked up. -/
structure RemoteKernel where
  tableAlloc : Bool
  pagesAlloc : Bool
  getMm : ℕ → Bool
  getUserPagesRemote : ℕ → ℕ → RemotePage

/-- The loop that looks up the pages of the records from `index` on: the pages that it pins, and
when it ends early, the value that the function returns. This is 0 when a page could not be pinned
without an error. -/
def remotePages (kernel : RemoteKernel) : ℕ → List PageChunk → List Page × Option ℤ
  | _, [] => ([], none)
  | index, chunk :: chunks =>
      if !kernel.getMm index then ([], some (-Errno.ENOMEM.code))
      else
        match kernel.getUserPagesRemote index chunk.addr with
        | .error rv => ([], some rv.val)
        | .notPinned => ([], some 0)
        | .pinned page =>
            let (pages, early) := remotePages kernel (index + 1) chunks
            (page :: pages, early)

def remainingLen (len : ℕ) (chunks : List PageChunk) : ℕ :=
  chunks.foldl (fun rest chunk => u64 (rest + (2 ^ 64 - u32 chunk.nbytes))) len

def remoteEntries (pages : List Page) (chunks : List PageChunk) : List SgEntry :=
  List.zipWith (fun page chunk => sgSetPage page (u32 chunk.nbytes) (u32 chunk.offset)) pages
    chunks

/-- The fields of `struct xdma_io_cb` that `map_remote_pages_to_sgl` fills in. -/
structure XdmaIoCb where
  /-- The pages in `cb->pages`, which is cleared behind them; `none` is the null pointer. -/
  pages : Option (List Page)
  pagesNr : ℕ
  /-- The scatterlist, once its entries have been set. -/
  sgl : Option (List SgEntry)
  deriving DecidableEq

/-- The structure as `memset` leaves it. -/
def XdmaIoCb.cleared : XdmaIoCb where
  pages := none
  pagesNr := 0
  sgl := none

/-- `map_remote_pages_to_sgl` on a cleared structure: its result, and the structure. -/
def mapRemotePages (kernel : RemoteKernel) (len : ℕ) (dma : FhHostIoctlDma) : ℤ × XdmaIoCb :=
  let pagesNr := u32 dma.chunksNr
  if pagesNr = 0 then (-Errno.EINVAL.code, .cleared)
  else if !kernel.tableAlloc then (-Errno.ENOMEM.code, .cleared)
  else if !kernel.pagesAlloc then (-Errno.ENOMEM.code, .cleared)
  else
    let chunks := dma.chunks.take pagesNr
    match remotePages kernel 0 chunks with
    | (pages, some ret) => (ret, { XdmaIoCb.cleared with pages := some pages })
    | (pages, none) =>
        if hasDuplicate pages then
          (-Errno.EFAULT.code, { XdmaIoCb.cleared with pages := some pages, pagesNr := pagesNr })
        else if remainingLen len chunks ≠ 0 then
          (-Errno.EINVAL.code,
            { XdmaIoCb.cleared with
              pages := some pages
              sgl := some (remoteEntries pages chunks) })
        else
          (0,
            { pages := some pages
              pagesNr := u32 dma.chunksNr
              sgl := some (remoteEntries pages chunks) })

/-- `map_remote_pages_to_sgl`: its result, and the scatterlist if it has been filled in. -/
def mapRemotePagesToSgl (kernel : RemoteKernel) (len : ℕ) (dma : FhHostIoctlDma) :
    ℤ × Option (List SgEntry) :=
  let (ret, cb) := mapRemotePages kernel len dma
  (ret, cb.sgl)

/-! ## The plain path and the pinning in the guest -/

/-- The plain path accepts and rejects the same buffers as the guest's pinning, with the same
errors, and its entries are the records of the guest. -/
theorem charSgdmaMapUserBufToSgl_eq {plain : PlainKernel} {guest : PinKernel} {buf len : ℕ}
    (inSpace : buf < 2 ^ 64) (capped : len ≤ 0x7ffff000)
    (tableAlloc : plain.tableAlloc = guest.pinPagesAlloc)
    (pagesAlloc : plain.pagesAlloc = guest.pagesAlloc)
    (pages : plain.getUserPagesFast = guest.getUserPagesFast) :
    charSgdmaMapUserBufToSgl plain buf len =
      (fhPinPages guest buf len).map fun pinned =>
        (cutBuffer pinned.pages buf len).1.map Piece.toEntry := by
  have fits : u32 (pageCount buf len) = pageCount buf len := by
    rw [pageCount_eq inSpace (by omega)]
    simp only [u32, pagesCovered, offsetInPage, pageSize]
    omega
  simp only [charSgdmaMapUserBufToSgl, fhPinPages, fhGetPageCount, fits, tableAlloc, pagesAlloc,
    pages]
  by_cases empty : pageCount buf len = 0
  · simp only [empty, ↓reduceIte]
    rfl
  by_cases noTable : (!guest.pinPagesAlloc) = true
  · simp only [empty, noTable, ↓reduceIte]
    rfl
  by_cases noPages : (!guest.pagesAlloc) = true
  · simp only [empty, noTable, noPages, ↓reduceIte]
    rfl
  simp only [empty, noTable, noPages, ↓reduceIte]
  cases guest.getUserPagesFast with
  | error rv => rfl
  | ok pages =>
      dsimp only
      by_cases length : pages.length = pageCount buf len
      · simp only [length, ne_eq, not_true_eq_false, ↓reduceIte, ↓reduceDIte]
        by_cases duplicate : hasDuplicate pages = true
        · simp only [duplicate, ↓reduceIte]
          rfl
        by_cases complete : (cutBuffer pages buf len).2.2 = 0
        · simp only [duplicate, complete, not_true_eq_false, ↓reduceIte]
          rfl
        · simp only [duplicate, complete, not_false_eq_true, ↓reduceIte]
          rfl
      · simp only [length, ne_eq, not_false_eq_true, ↓reduceIte, ↓reduceDIte]
        rfl

end Acai
