import Acai.Guest.PinPages
import Acai.Lib.Blocks

/-!
# The records of a pinned buffer

`fh_pin_pages` counts the pages of a buffer by a formula and then cuts the buffer
page by page. This file shows that the two agree: the records are the parts into
which the page boundaries cut the buffer, one for each page that it overlaps.

The records stand behind the header of `struct pin_pages_struct` in one block. Its
size is computed from the size of a pointer to the structure in place of the size of
the structure, so that the block is 32 bytes too small. Whole pages are allocated,
which hides the difference unless the last page is full.
-/

namespace Acai

/-! ## The loop and the parts of the buffer -/

theorem boundary_one (buf : ℕ) :
    Blocks.boundary pageSize buf 1 = buf + (pageSize - offsetInPage buf) := by
  simp only [Blocks.boundary, offsetInPage, pageSize]
  omega

theorem cutBuffer_parts {pages : List Page} {buf len : ℕ} (pos : 0 < len)
    (small : len < 2 ^ 32) (inSpace : buf + len < 2 ^ 64)
    (enough : pages.length = Blocks.count pageSize buf (buf + len)) :
    (cutBuffer pages buf len).1.map (fun piece => (piece.offset, piece.nbytes)) =
      (Blocks.parts pageSize buf (buf + len)).map
        (fun part => (offsetInPage part.start, part.length)) := by
  have size_pos : 0 < pageSize := by decide
  induction pages generalizing buf len with
  | nil =>
      have some_page : 0 < Blocks.count pageSize buf (buf + len) := Blocks.count_pos (by omega)
      rw [List.length_nil] at enough
      omega
  | cons page pages ih =>
      have offset_lt : offsetInPage buf < pageSize := Nat.mod_lt _ size_pos
      have next := boundary_one buf
      rcases le_or_gt (buf + len) (Blocks.boundary pageSize buf 1) with last | more
      · have parts := Blocks.parts_of_le size_pos (by omega) last
        have none : pages = [] := by
          rw [Blocks.count_of_le size_pos (by omega) last] at enough
          simpa using enough
        have nbytes : min (u32 (pageSize - offsetInPage buf)) (u32 len) = len := by
          simp only [u32, pageSize] at next last ⊢
          omega
        simp [cutBuffer, none, nbytes, parts]
      · have parts := Blocks.parts_of_lt size_pos (by omega) more
        have nbytes : min (u32 (pageSize - offsetInPage buf)) (u32 len) =
            pageSize - offsetInPage buf := by
          simp only [u32, pageSize] at next more ⊢
          omega
        have advance : u64 (buf + (pageSize - offsetInPage buf)) =
            Blocks.boundary pageSize buf 1 := by
          rw [next, u64]
          omega
        have stop : Blocks.boundary pageSize buf 1 + (len - (pageSize - offsetInPage buf)) =
            buf + len := by
          omega
        have fewer : pages.length = Blocks.count pageSize (Blocks.boundary pageSize buf 1)
            (buf + len) := by
          rw [Blocks.count_of_lt size_pos (by omega) more] at enough
          exact Nat.succ.inj enough
        have rest := @ih (Blocks.boundary pageSize buf 1) (len - (pageSize - offsetInPage buf))
          (by omega) (by omega) (by omega) (by rw [stop]; exact fewer)
        rw [stop] at rest
        have first : pageSize - offsetInPage buf = Blocks.boundary pageSize buf 1 - buf := by
          omega
        simp only [cutBuffer, nbytes, advance, List.map_cons, rest, parts]
        rw [first]

theorem fhGetPageCount_eq_count {buf count : ℕ} (pos : 0 < count) (small : count < 2 ^ 32)
    (inSpace : buf + count < 2 ^ 64) :
    fhGetPageCount buf count = Blocks.count pageSize buf (buf + count) := by
  rw [fhGetPageCount, pageCount_eq (by omega) (by omega)]
  simp only [pagesCovered, offsetInPage, Blocks.count, pageSize]
  omega

/-! ## The records tile the buffer -/

/-- The records of a buffer whose pages are `pages`: one for each page that the buffer overlaps,
in order, with the bytes of the buffer that lie in it. -/
structure TilesBuffer (pages : List Page) (buf count : ℕ) (chunks : List PageChunk) : Prop where
  overlapped : ∀ page, (∃ address, buf ≤ address ∧ address < buf + count ∧
      address / pageSize = page) ↔ ∃ index < chunks.length, page = buf / pageSize + index
  refers : chunks.map PageChunk.addr = pages.map Page.pfn
  nonempty : ∀ chunk ∈ chunks, 0 < chunk.nbytes
  inPage : ∀ chunk ∈ chunks, chunk.offset + chunk.nbytes ≤ pageSize
  alignedStart : ∀ index chunk, chunks[index]? = some chunk → index ≠ 0 → chunk.offset = 0
  alignedStop : ∀ index chunk, chunks[index]? = some chunk → index + 1 ≠ chunks.length →
    chunk.offset + chunk.nbytes = pageSize
  /-- A record starts, in its page, where the records before it end. -/
  consecutive : ∀ index chunk, chunks[index]? = some chunk →
    pageSize * (buf / pageSize + index) + chunk.offset =
      buf + ((chunks.take index).map PageChunk.nbytes).sum
  sum : (chunks.map PageChunk.nbytes).sum = count

section

variable {buf count : ℕ}

theorem offset_part {index : ℕ} (pos : 0 < count)
    (inside : index < Blocks.count pageSize buf (buf + count)) :
    pageSize * (buf / pageSize + index) +
        offsetInPage (Blocks.part pageSize buf (buf + count) index).start =
      (Blocks.part pageSize buf (buf + count) index).start := by
  have reached := (Blocks.boundary_lt_iff (by decide) (by omega)).mpr inside
  simp only [Blocks.part, Blocks.boundary, offsetInPage, pageSize] at reached ⊢
  omega

theorem getElem?_chunks {chunks : List PageChunk}
    (records : chunks.map (fun chunk => (chunk.offset, chunk.nbytes)) =
      (Blocks.parts pageSize buf (buf + count)).map
        (fun part => (offsetInPage part.start, part.length)))
    {index : ℕ} {chunk : PageChunk} (chunk_eq : chunks[index]? = some chunk) :
    index < Blocks.count pageSize buf (buf + count) ∧
      chunk.offset = offsetInPage (Blocks.part pageSize buf (buf + count) index).start ∧
      chunk.nbytes = (Blocks.part pageSize buf (buf + count) index).length := by
  have here := congrArg (fun list => list[index]?) records
  simp only [List.getElem?_map, chunk_eq, Option.map_some, Blocks.parts] at here
  rcases lt_or_ge index (Blocks.count pageSize buf (buf + count)) with inside | outside
  · rw [List.getElem?_range inside] at here
    simpa [inside] using here
  · rw [List.getElem?_eq_none (by simpa using outside)] at here
    cases here

/-- Records that follow the parts of a buffer tile it. -/
theorem tilesBuffer_of_parts {pages : List Page} {chunks : List PageChunk} (pos : 0 < count)
    (refers : chunks.map PageChunk.addr = pages.map Page.pfn)
    (records : chunks.map (fun chunk => (chunk.offset, chunk.nbytes)) =
      (Blocks.parts pageSize buf (buf + count)).map
        (fun part => (offsetInPage part.start, part.length))) :
    TilesBuffer pages buf count chunks := by
  have size_pos : 0 < pageSize := by decide
  have nonempty : buf < buf + count := by omega
  have length : chunks.length = Blocks.count pageSize buf (buf + count) := by
    simpa [Blocks.parts] using congrArg List.length records
  have nbytes : chunks.map PageChunk.nbytes =
      (Blocks.parts pageSize buf (buf + count)).map Part.length := by
    simpa [Function.comp_def] using congrArg (List.map Prod.snd) records
  have offset_le : ∀ index chunk, chunks[index]? = some chunk →
      pageSize * (buf / pageSize + index) + chunk.offset + chunk.nbytes =
        min (buf + count) (pageSize * (buf / pageSize + index) + pageSize) := by
    intro index chunk chunk_eq
    rcases getElem?_chunks records chunk_eq with ⟨inside, offset_eq, nbytes_eq⟩
    rw [offset_eq, nbytes_eq, offset_part pos inside, Blocks.part_stop size_pos nonempty inside,
      Blocks.boundary_succ, Blocks.boundary]
  constructor
  case overlapped =>
    intro page
    rw [length]
    exact Blocks.overlaps_iff size_pos nonempty
  case refers => exact refers
  case nonempty =>
    intro chunk chunk_mem
    rcases List.mem_iff_getElem?.mp chunk_mem with ⟨index, chunk_eq⟩
    rcases getElem?_chunks records chunk_eq with ⟨inside, -, nbytes_eq⟩
    rw [nbytes_eq]
    exact Blocks.part_length_pos size_pos nonempty inside
  case inPage =>
    intro chunk chunk_mem
    rcases List.mem_iff_getElem?.mp chunk_mem with ⟨index, chunk_eq⟩
    have stopped := offset_le index chunk chunk_eq
    omega
  case alignedStart =>
    intro index chunk chunk_eq later
    rcases getElem?_chunks records chunk_eq with ⟨-, offset_eq, -⟩
    rcases Nat.exists_eq_succ_of_ne_zero later with ⟨earlier, rfl⟩
    have after := Blocks.lt_boundary_succ buf size_pos earlier
    rw [offset_eq, Blocks.part, max_eq_right after.le, Blocks.boundary]
    exact Nat.mul_mod_right _ _
  case alignedStop =>
    intro index chunk chunk_eq notLast
    rcases getElem?_chunks records chunk_eq with ⟨inside, -, -⟩
    have reached := (Blocks.boundary_lt_iff size_pos nonempty).mpr (show index + 1 < _ by omega)
    have stopped := offset_le index chunk chunk_eq
    rw [Blocks.boundary_succ, Blocks.boundary] at reached
    omega
  case consecutive =>
    intro index chunk chunk_eq
    rcases getElem?_chunks records chunk_eq with ⟨inside, offset_eq, -⟩
    have earlier : (chunks.take index).map PageChunk.nbytes =
        (List.range index).map fun earlier =>
          (Blocks.part pageSize buf (buf + count) earlier).length := by
      rw [List.map_take, nbytes, Blocks.parts, List.map_map, ← List.map_take, List.take_range,
        min_eq_left inside.le]
      rfl
    rw [offset_eq, offset_part pos inside, earlier]
    exact Blocks.part_start size_pos nonempty inside
  case sum =>
    rw [nbytes, Blocks.sum_length_parts size_pos nonempty]
    omega

end

theorem Pinned.tilesBuffer {kernel : PinKernel} {buf count : ℕ} {pinned : PinPages}
    (result : Pinned kernel buf count pinned) (pos : 0 < count) (small : count < 2 ^ 32)
    (inSpace : buf + count < 2 ^ 64) :
    TilesBuffer pinned.pages buf count pinned.pageChunks := by
  apply tilesBuffer_of_parts pos result.addr_eq
  have enough := result.length
  rw [fhGetPageCount_eq_count pos small inSpace] at enough
  rw [← cutBuffer_parts pos small inSpace enough, result.chunks, List.map_map]
  rfl

/--
For every buffer within the limit of a read or write that does not reach the end of
the address space: the records that `fh_pin_pages` builds tile the buffer, and once
all pages are pinned and no neighbours are equal it succeeds, so that the error for
a remaining length is never reached.
-/
theorem fhPinPages_tiles {kernel : PinKernel} {buf count : ℕ} (pos : 1 ≤ count)
    (capped : count ≤ 0x7ffff000) (inSpace : buf + count + 4095 < 2 ^ 64) :
    (∀ pinned, fhPinPages kernel buf count = .ok pinned →
      kernel.getUserPagesFast = .ok pinned.pages ∧
        TilesBuffer pinned.pages buf count pinned.pageChunks) ∧
    ∀ pages, kernel.pinPagesAlloc = true → kernel.pagesAlloc = true →
      kernel.getUserPagesFast = .ok pages → pages.length = fhGetPageCount buf count →
      hasDuplicate pages = false → ∃ pinned, fhPinPages kernel buf count = .ok pinned := by
  constructor
  · intro pinned success
    have result := fhPinPages_ok success
    exact ⟨result.pages, result.tilesBuffer pos (by omega) (by omega)⟩
  · intro pages pinPagesAlloc pagesAlloc pages_eq length noDuplicate
    have covered := length
    rw [fhGetPageCount, pageCount_eq (by omega) (by omega)] at covered
    have complete := (cutBuffer_complete (by omega) covered (Or.inl pos)).1
    have some_page : fhGetPageCount buf count ≠ 0 := by
      rw [fhGetPageCount_eq_count pos (by omega) (by omega)]
      exact (Blocks.count_pos (by omega)).ne'
    exact fhPinPages_of_pages some_page pinPagesAlloc pagesAlloc pages_eq length noDuplicate
      complete

theorem fhPinPages_tiles_twoPages :
    TilesBuffer pinnedTwo.pages 0x1800 4096 pinnedTwo.pageChunks :=
  ((@fhPinPages_tiles .pinsTwo 0x1800 4096 (by decide) (by decide) (by decide)).1 pinnedTwo rfl).2

/-! ## The block of the records -/

namespace PinPagesStruct

def userBuf : Field := ⟨0, 8⟩

def len : Field := ⟨8, 8⟩

def pages : Field := ⟨16, 8⟩

def pagesNr : Field := ⟨24, 8⟩

/-- The packed size of the structure, which has another word, `priv_data`. -/
def size : ℕ := 40

def pageChunk (index : ℕ) : Field := ⟨size + PageChunk.size * index, PageChunk.size⟩

end PinPagesStruct

/-- The size that `fh_pin_pages` asks for, with the size of a pointer where that of the structure
belongs. -/
def pinPagesAllocSize (pagesNr : ℕ) : ℕ := u64 (8 + u64 (pagesNr * PageChunk.size))

/-- The bytes in the pages that `vmalloc` hands out for `size` bytes. -/
def vmallocArea (size : ℕ) : ℕ := pagesCovered size * pageSize

/-- The writes of `fh_pin_pages` to the block, by their place in it: the clearing of the block, the
records and, when it succeeds, the header. -/
def fhPinPagesWrites (kernel : PinKernel) (buf count : ℕ) : List Field :=
  let pagesNr := fhGetPageCount buf count
  if pagesNr = 0 then []
  else if !kernel.pinPagesAlloc then []
  else
    ⟨0, pinPagesAllocSize pagesNr⟩ ::
      if !kernel.pagesAlloc then []
      else
        match kernel.getUserPagesFast with
        | .error _ => []
        | .ok pages =>
            if pages.length = pagesNr then
              if hasDuplicate pages then []
              else
                (List.range pagesNr).map PinPagesStruct.pageChunk ++
                  if (cutBuffer pages buf count).2.2 ≠ 0 then []
                  else
                    [PinPagesStruct.pagesNr, PinPagesStruct.userBuf, PinPagesStruct.len,
                      PinPagesStruct.pages]
            else []

/-- A call that succeeds has written the records of its result, one behind the other, and the
header. -/
theorem fhPinPagesWrites_of_ok {kernel : PinKernel} {buf count : ℕ} {pinned : PinPages}
    (success : fhPinPages kernel buf count = .ok pinned) :
    fhPinPagesWrites kernel buf count =
      ⟨0, pinPagesAllocSize pinned.pagesNr⟩ ::
        ((List.range pinned.pageChunks.length).map PinPagesStruct.pageChunk ++
          [PinPagesStruct.pagesNr, PinPagesStruct.userBuf, PinPagesStruct.len,
            PinPagesStruct.pages]) := by
  simp only [fhPinPages] at success
  simp only [fhPinPagesWrites]
  split at success
  · cases success
  rename_i some_page
  split at success
  · cases success
  rename_i pinPagesAlloc
  split at success
  · cases success
  rename_i pagesAlloc
  split at success
  · cases success
  rename_i pages pages_eq
  split at success
  · rename_i length
    split at success
    · cases success
    rename_i noDuplicate
    split at success
    · cases success
    rename_i complete
    cases success
    simp only [some_page, pinPagesAlloc, pagesAlloc, pages_eq, length, noDuplicate, complete,
      length_toChunk_cutBuffer buf count length, Bool.false_eq_true, ↓reduceIte]
  · cases success

/-- Only a call that succeeds writes the header. -/
theorem pagesNr_mem_fhPinPagesWrites_iff {kernel : PinKernel} {buf count : ℕ} :
    PinPagesStruct.pagesNr ∈ fhPinPagesWrites kernel buf count ↔
      ∃ pinned, fhPinPages kernel buf count = .ok pinned := by
  constructor
  · intro written
    have notCleared : ∀ size, PinPagesStruct.pagesNr ≠ ⟨0, size⟩ := by
      intro size same
      cases congrArg Field.offset same
    have notRecord : PinPagesStruct.pagesNr ∉
        (List.range (fhGetPageCount buf count)).map PinPagesStruct.pageChunk := by
      intro record
      rcases List.mem_map.mp record with ⟨index, -, same⟩
      have offsets : 40 + 24 * index = 24 := congrArg Field.offset same
      omega
    simp only [fhPinPagesWrites] at written
    split at written
    · cases written
    rename_i some_page
    split at written
    · cases written
    rename_i pinPagesAlloc
    have later := (List.mem_cons.mp written).resolve_left (notCleared _)
    split at later
    · cases later
    rename_i pagesAlloc
    split at later
    · cases later
    rename_i pages pages_eq
    split at later
    · rename_i length
      split at later
      · cases later
      rename_i noDuplicate
      have header := (List.mem_append.mp later).resolve_left notRecord
      split at header
      · cases header
      rename_i complete
      exact fhPinPages_of_pages some_page (by simpa using pinPagesAlloc) (by simpa using pagesAlloc)
        pages_eq length (by simpa using noDuplicate) (not_not.mp complete)
    · cases later
  · rintro ⟨pinned, success⟩
    rw [fhPinPagesWrites_of_ok success]
    simp

/-- `fh_pin_pages` gets as far as the loop that writes the records. -/
structure WritesRecords (kernel : PinKernel) (buf count : ℕ) : Prop where
  pinPagesAlloc : kernel.pinPagesAlloc = true
  pagesAlloc : kernel.pagesAlloc = true
  pages : ∃ pages, kernel.getUserPagesFast = .ok pages ∧
    pages.length = fhGetPageCount buf count ∧ hasDuplicate pages = false

theorem pageCount_lt (buf len : ℕ) : pageCount buf len < 2 ^ 52 := by
  simp only [pageCount, u64, pageSize]
  omega

theorem pinPagesAllocSize_eq {pagesNr : ℕ} (few : pagesNr < 2 ^ 52) :
    pinPagesAllocSize pagesNr = 8 + pagesNr * PageChunk.size := by
  simp only [pinPagesAllocSize, u64, PageChunk.size]
  omega

/-- The numbers of pages for which the last page of the block has no room for the missing bytes. -/
def Overfills (pagesNr : ℕ) : Prop :=
  pagesNr % 512 = 170 ∨ pagesNr % 512 = 340 ∨ pagesNr % 512 = 341 ∨ pagesNr % 512 = 511

theorem le_vmallocArea_iff {pagesNr : ℕ} (few : pagesNr < 2 ^ 52) :
    PinPagesStruct.size + PageChunk.size * pagesNr ≤ vmallocArea (pinPagesAllocSize pagesNr) ↔
      ¬Overfills pagesNr := by
  -- 512 records fill three pages, so only the remainder of the number of pages matters
  have remainder : ∀ rest < 512, (40 + 24 * rest ≤ (8 + rest * 24 + 4096 - 1) / 4096 * 4096 ↔
      ¬(rest = 170 ∨ rest = 340 ∨ rest = 341 ∨ rest = 511)) := by
    decide +kernel
  have here := remainder (pagesNr % 512) (Nat.mod_lt _ (by decide))
  have pages : (8 + pagesNr * 24 + 4096 - 1) / 4096 =
      (8 + pagesNr % 512 * 24 + 4096 - 1) / 4096 + 3 * (pagesNr / 512) := by
    rw [← Nat.add_mul_div_left _ _ (by decide)]
    congr 1
    omega
  rw [pinPagesAllocSize_eq few, Overfills, ← here]
  simp only [PinPagesStruct.size, PageChunk.size, vmallocArea, pagesCovered, pageSize, pages]
  omega

theorem fhPinPagesWrites_eq {kernel : PinKernel} {buf count : ℕ}
    (writes : WritesRecords kernel buf count) (some_page : fhGetPageCount buf count ≠ 0) :
    ∃ header, (∀ field ∈ header, field.offset + field.width ≤ PinPagesStruct.size) ∧
      fhPinPagesWrites kernel buf count =
        ⟨0, pinPagesAllocSize (fhGetPageCount buf count)⟩ ::
          ((List.range (fhGetPageCount buf count)).map PinPagesStruct.pageChunk ++ header) := by
  rcases writes.pages with ⟨pages, pages_eq, length, noDuplicate⟩
  refine ⟨if (cutBuffer pages buf count).2.2 ≠ 0 then []
    else [PinPagesStruct.pagesNr, PinPagesStruct.userBuf, PinPagesStruct.len,
      PinPagesStruct.pages], ?_, ?_⟩
  · split
    · simp
    · decide
  · simp only [fhPinPagesWrites, some_page, writes.pinPagesAlloc, writes.pagesAlloc, pages_eq,
      length, noDuplicate, Bool.not_true, Bool.false_eq_true, ↓reduceIte]

theorem mem_fhPinPagesWrites {kernel : PinKernel} {buf count : ℕ} {field : Field}
    (noRecords : ¬WritesRecords kernel buf count)
    (field_mem : field ∈ fhPinPagesWrites kernel buf count) :
    field = ⟨0, pinPagesAllocSize (fhGetPageCount buf count)⟩ := by
  simp only [fhPinPagesWrites] at field_mem
  split at field_mem
  · cases field_mem
  split at field_mem
  · cases field_mem
  rename_i pinPagesAlloc
  split at field_mem
  · simpa using field_mem
  rename_i pagesAlloc
  split at field_mem
  · simpa using field_mem
  rename_i pages pages_eq
  split at field_mem
  · rename_i length
    split at field_mem
    · simpa using field_mem
    · rename_i noDuplicate
      refine absurd ⟨?_, ?_, pages, pages_eq, length, ?_⟩ noRecords
      · simpa using pinPagesAlloc
      · simpa using pagesAlloc
      · simpa using noDuplicate
  · simpa using field_mem

/--
The writes of `fh_pin_pages` stay inside the pages of its block if and only if it
does not get to the records, or the last page of the block has room for the bytes
that its size lacks.
-/
theorem fhPinPagesWrites_inBlock_iff (kernel : PinKernel) (buf count : ℕ) :
    (∀ field ∈ fhPinPagesWrites kernel buf count,
        field.offset + field.width ≤ vmallocArea (pinPagesAllocSize (fhGetPageCount buf count))) ↔
      (WritesRecords kernel buf count → ¬Overfills (fhGetPageCount buf count)) := by
  have cleared : pinPagesAllocSize (fhGetPageCount buf count) ≤
      vmallocArea (pinPagesAllocSize (fhGetPageCount buf count)) := by
    simp only [vmallocArea, pagesCovered, pageSize]
    omega
  by_cases writes : WritesRecords kernel buf count
  · by_cases some_page : fhGetPageCount buf count = 0
    · simp [fhPinPagesWrites, some_page, Overfills]
    rcases fhPinPagesWrites_eq writes some_page with ⟨header, inHeader, writes_eq⟩
    have few : fhGetPageCount buf count < 2 ^ 52 := pageCount_lt buf count
    rw [← le_vmallocArea_iff few, writes_eq]
    simp only [writes, forall_const]
    constructor
    · intro inside
      have last := inside (PinPagesStruct.pageChunk (fhGetPageCount buf count - 1)) (by
        simp only [List.mem_cons, List.mem_append, List.mem_map, List.mem_range]
        exact Or.inr (Or.inl ⟨_, by omega, rfl⟩))
      simp only [PinPagesStruct.pageChunk, PageChunk.size] at last ⊢
      omega
    · intro room field field_mem
      rcases List.mem_cons.mp field_mem with rfl | field_mem
      · exact (Nat.zero_add _).trans_le cleared
      rcases List.mem_append.mp field_mem with record | inside
      · rcases List.mem_map.mp record with ⟨index, index_mem, rfl⟩
        have index_lt := List.mem_range.mp index_mem
        simp only [PinPagesStruct.pageChunk, PageChunk.size] at room ⊢
        omega
      · have inside := inHeader field inside
        omega
  · constructor
    · intro _ reaches
      exact absurd reaches writes
    · intro _ field field_mem
      rw [mem_fhPinPagesWrites writes field_mem]
      exact (Nat.zero_add _).trans_le cleared

/-- A kernel that pins 170 pages, whose records fill the block to its last byte. -/
def PinKernel.pins170 : PinKernel where
  pinPagesAlloc := true
  pagesAlloc := true
  getUserPagesFast := .ok ((List.range 170).map Page.ofPfn)

/-- The record of the last of 170 pages reaches past the block. -/
theorem fhPinPagesWrites_past_block :
    ¬∀ (kernel : PinKernel) (buf count : ℕ), 1 ≤ count →
      ∀ field ∈ fhPinPagesWrites kernel buf count,
        field.offset + field.width ≤
          vmallocArea (pinPagesAllocSize (fhGetPageCount buf count)) := by
  intro claim
  have inside := claim .pins170 0 (170 * 4096) (by decide) (PinPagesStruct.pageChunk 169)
    (by decide +kernel)
  exact absurd inside (by decide +kernel)

end Acai
