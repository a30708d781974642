import Acai.Driver.Sgdma
import Acai.Guest.FileOps

/-!
# A DMA of the guest and a DMA of the plain driver

A read or write in the guest takes a long way to the device: the stub pins the
buffer and describes its pages, the records go over to the manager in chunks, the
manager translates each page frame number into an address of the guest's process,
and the host driver builds a scatterlist from the translated records.

This file follows one buffer over the whole way. The scatterlist at its end is
the one that the plain driver would have built for the same buffer, with every
guest page replaced by the host page behind it, and a buffer that the plain driver
rejects never leaves the guest.
-/

namespace Acai

/-! ## The records in the transfer buffer -/

namespace PageChunk

theorem ofMem_of_readBytes {mem : ByteMem} {address : ℕ} {chunk : PageChunk}
    (inRange : chunk.InRange) (bytes : mem.readBytes address size = chunk.toBytes) :
    ofMem mem address = chunk := by
  rcases inRange with ⟨addr_lt, offset_lt, nbytes_lt⟩
  have split : mem.readBytes address size = (mem.readBytes address 8 ++
      mem.readBytes (address + 8) 8) ++ mem.readBytes (address + 16) 8 := by
    rw [show size = 8 + 8 + 8 from rfl, ByteMem.readBytes_add, ByteMem.readBytes_add]
  rw [split, toBytes] at bytes
  rcases List.append_inj bytes (by simp) with ⟨front, nbytes⟩
  rcases List.append_inj front (by simp) with ⟨addr, offset⟩
  have width : 256 ^ 8 = 2 ^ 64 := by norm_num
  simp only [ofMem, ByteMem.get, addr, offset, nbytes, ofLE_leBytes, width]
  rw [Nat.mod_eq_of_lt addr_lt, Nat.mod_eq_of_lt offset_lt, Nat.mod_eq_of_lt nbytes_lt]

end PageChunk

theorem readChunks_of_readBytes {chunks : List PageChunk} {mem : ByteMem}
    (inRange : ∀ chunk ∈ chunks, chunk.InRange)
    (bytes : mem.readBytes 0 (PageChunk.size * chunks.length) = chunkBytes chunks) :
    readChunks mem chunks.length = chunks := by
  have fromAddress : ∀ address,
      mem.readBytes address (PageChunk.size * chunks.length) = chunkBytes chunks →
        (List.range chunks.length).map
          (fun index => PageChunk.ofMem mem (address + PageChunk.size * index)) = chunks := by
    clear bytes
    induction chunks with
    | nil => simp
    | cons chunk chunks ih =>
        intro address bytes
        rw [List.length_cons, Nat.mul_succ, Nat.add_comm, ByteMem.readBytes_add] at bytes
        simp only [chunkBytes, List.flatMap_cons] at bytes
        rcases List.append_inj bytes (by simp) with ⟨first, rest⟩
        have tail := ih (fun other other_mem => inRange other (List.mem_cons_of_mem _ other_mem))
          (address + PageChunk.size) rest
        have head := PageChunk.ofMem_of_readBytes (inRange chunk List.mem_cons_self) first
        rw [List.length_cons, List.range_succ_eq_map, List.map_cons, List.map_map, Nat.mul_zero,
          Nat.add_zero, head]
        conv_rhs => rw [← tail]
        rw [List.cons.injEq]
        refine ⟨rfl, ?_⟩
        apply List.map_congr_left
        intro index _
        rw [Function.comp_apply, Nat.succ_eq_add_one, Nat.mul_succ,
          Nat.add_comm (PageChunk.size * _),
          Nat.add_assoc]
  have atZero := fromAddress 0 bytes
  simpa [readChunks] using atZero

/-! ## The scatterlist of the remote path -/

theorem hasDuplicate_map {f : Page → Page} {pages : List Page}
    (injective : ∀ first ∈ pages, ∀ second ∈ pages, f first = f second → first = second) :
    hasDuplicate (pages.map f) = hasDuplicate pages := by
  induction pages with
  | nil => rfl
  | cons first rest ih =>
      cases rest with
      | nil => rfl
      | cons second rest =>
          have tail := ih (fun one one_mem other other_mem =>
            injective one (List.mem_cons_of_mem _ one_mem) other (List.mem_cons_of_mem _ other_mem))
          have head : (f first == f second) = (first == second) := by
            rw [Bool.eq_iff_iff, beq_iff_eq, beq_iff_eq]
            constructor
            · exact injective first List.mem_cons_self second (by simp)
            · exact congrArg f
          simp only [List.map_cons, hasDuplicate] at tail ⊢
          rw [tail, head]

theorem cutBuffer_sum (pages : List Page) (buf len : ℕ) :
    ((cutBuffer pages buf len).1.map Piece.nbytes).sum + (cutBuffer pages buf len).2.2 = len := by
  induction pages generalizing buf len with
  | nil => simp [cutBuffer]
  | cons page pages ih =>
      simp only [cutBuffer, List.map_cons, List.sum_cons]
      have rest := ih (u64 (buf + min (u32 (pageSize - offsetInPage buf)) (u32 len)))
        (len - min (u32 (pageSize - offsetInPage buf)) (u32 len))
      have bound : u32 len ≤ len := Nat.mod_le _ _
      omega

theorem remainingLen_eq {len : ℕ} {chunks : List PageChunk} (inSpace : len < 2 ^ 64)
    (small : ∀ chunk ∈ chunks, chunk.nbytes < 2 ^ 32)
    (fits : (chunks.map PageChunk.nbytes).sum ≤ len) :
    remainingLen len chunks = len - (chunks.map PageChunk.nbytes).sum := by
  induction chunks generalizing len with
  | nil => simp [remainingLen]
  | cons chunk chunks ih =>
      have chunkSmall := small chunk List.mem_cons_self
      have width : u32 chunk.nbytes = chunk.nbytes := Nat.mod_eq_of_lt chunkSmall
      simp only [List.map_cons, List.sum_cons] at fits ⊢
      have step : u64 (len + (2 ^ 64 - u32 chunk.nbytes)) = len - chunk.nbytes := by
        rw [width, u64]
        omega
      have rest := @ih (len - chunk.nbytes) (by omega)
        (fun other other_mem => small other (List.mem_cons_of_mem _ other_mem)) (by omega)
      simp only [remainingLen, List.foldl_cons, step] at rest ⊢
      rw [rest]
      omega

section

variable {kernel : RemoteKernel} {hostPage : ℕ → Page} {ctx : CtxStruct}

/-- The host page behind a page of the guest. -/
def relocated (hostPage : ℕ → Page) (ctx : CtxStruct) (page : Page) : Page :=
  hostPage (getAddrMapVaddrVerify ctx page.pfn).toNat

theorem remotePages_eq (found : ∀ index, kernel.getMm index = true) {pieces : List Piece}
    (lookup : ∀ index, ∀ piece ∈ pieces, kernel.getUserPagesRemote index
      (getAddrMapVaddrVerify ctx piece.page.pfn).toNat =
        .pinned (relocated hostPage ctx piece.page)) (index : ℕ) :
    remotePages kernel index (pieces.map fun piece => translated ctx piece.toChunk) =
      (pieces.map fun piece => relocated hostPage ctx piece.page, none) := by
  induction pieces generalizing index with
  | nil => rfl
  | cons piece pieces ih =>
      have rest := ih
        (fun later other other_mem => lookup later other (List.mem_cons_of_mem _ other_mem))
        (index + 1)
      have first := lookup index piece List.mem_cons_self
      simp only [List.map_cons, remotePages, found, Bool.not_true, Bool.false_eq_true, ↓reduceIte,
        translated, PageChunk.withAddr, Piece.toChunk] at rest ⊢
      rw [first]
      simp only [rest]

def SgEntry.relocate (hostPage : ℕ → Page) (ctx : CtxStruct) (entry : SgEntry) : SgEntry :=
  { entry with page := relocated hostPage ctx entry.page }

theorem remoteEntries_eq {pieces : List Piece}
    (inPage : ∀ piece ∈ pieces, piece.offset + piece.nbytes ≤ pageSize) :
    remoteEntries (pieces.map fun piece => relocated hostPage ctx piece.page)
        (pieces.map fun piece => translated ctx piece.toChunk) =
      (pieces.map Piece.toEntry).map (SgEntry.relocate hostPage ctx) := by
  induction pieces with
  | nil => rfl
  | cons piece pieces ih =>
      have rest := ih (fun other other_mem => inPage other (List.mem_cons_of_mem _ other_mem))
      have fits := inPage piece List.mem_cons_self
      simp only [pageSize] at fits
      have offset : u32 piece.offset = piece.offset := Nat.mod_eq_of_lt (by omega)
      have nbytes : u32 piece.nbytes = piece.nbytes := Nat.mod_eq_of_lt (by omega)
      simp only [remoteEntries, List.map_cons, List.zipWith_cons_cons] at rest ⊢
      rw [rest]
      simp only [translated, PageChunk.withAddr, Piece.toChunk, offset, nbytes, Piece.toEntry,
        SgEntry.relocate, sgSetPage]

/-- The kernel does its part of `map_remote_pages_to_sgl` for the pages of the guest. -/
structure RemoteKernel.Serves (kernel : RemoteKernel) (hostPage : ℕ → Page) (ctx : CtxStruct)
    (pages : List Page) : Prop where
  tableAlloc : kernel.tableAlloc = true
  pagesAlloc : kernel.pagesAlloc = true
  getMm : ∀ index, kernel.getMm index = true
  lookup : ∀ index, ∀ page ∈ pages,
    kernel.getUserPagesRemote index (getAddrMapVaddrVerify ctx page.pfn).toNat =
      .pinned (relocated hostPage ctx page)

/-- From the translated records of a buffer, the remote path builds the entries of the plain path
with their pages replaced, unless it finds the same host page twice in a row. -/
theorem mapRemotePagesToSgl_eq {pages : List Page} {buf len : ℕ} {dma : FhHostIoctlDma}
    (serves : kernel.Serves hostPage ctx pages)
    (pos : 0 < pages.length) (few : pages.length < 2 ^ 32) (inSpace : len < 2 ^ 64)
    (complete : (cutBuffer pages buf len).2.2 = 0)
    (chunks : dma.chunks =
      (cutBuffer pages buf len).1.map fun piece => translated ctx piece.toChunk)
    (chunksNr : dma.chunksNr = pages.length) :
    mapRemotePagesToSgl kernel len dma =
      if hasDuplicate (pages.map (relocated hostPage ctx)) then (-Errno.EFAULT.code, none)
      else (0, some (((cutBuffer pages buf len).1.map Piece.toEntry).map
        (SgEntry.relocate hostPage ctx))) := by
  have pagesNr : u32 pages.length = pages.length := Nat.mod_eq_of_lt few
  have pages_eq := cutBuffer_pages pages buf len
  have all : ((cutBuffer pages buf len).1.map fun piece => translated ctx piece.toChunk).take
      pages.length = (cutBuffer pages buf len).1.map fun piece => translated ctx piece.toChunk := by
    apply List.take_of_length_le
    rw [List.length_map, length_cutBuffer]
  have inPages : ∀ piece ∈ (cutBuffer pages buf len).1, piece.page ∈ pages := by
    intro piece piece_mem
    rw [← pages_eq]
    exact List.mem_map_of_mem piece_mem
  have found := remotePages_eq serves.getMm
    (fun index piece piece_mem => serves.lookup index piece.page (inPages piece piece_mem)) 0
  have hostPages : (cutBuffer pages buf len).1.map
      (fun piece => relocated hostPage ctx piece.page) =
      pages.map (relocated hostPage ctx) := by
    conv_rhs => rw [← pages_eq, List.map_map]
    rfl
  have sum : (((cutBuffer pages buf len).1.map fun piece =>
      translated ctx piece.toChunk).map PageChunk.nbytes).sum = len := by
    have total := cutBuffer_sum pages buf len
    rw [complete, Nat.add_zero] at total
    conv_rhs => rw [← total]
    rw [List.map_map]
    rfl
  have usedUp : remainingLen len ((cutBuffer pages buf len).1.map fun piece =>
      translated ctx piece.toChunk) = 0 := by
    rw [remainingLen_eq inSpace _ sum.le, sum, Nat.sub_self]
    intro chunk chunk_mem
    rcases List.mem_map.mp chunk_mem with ⟨piece, piece_mem, rfl⟩
    have inPage := cutBuffer_inPage piece_mem
    simp only [pageSize] at inPage
    simp only [translated, PageChunk.withAddr, Piece.toChunk]
    omega
  simp only [mapRemotePagesToSgl, mapRemotePages, chunksNr, pagesNr, pos.ne', ↓reduceIte,
    serves.tableAlloc, serves.pagesAlloc, Bool.not_true, Bool.false_eq_true, all, chunks, found,
    usedUp, ne_eq, not_true_eq_false, hostPages]
  split
  · rfl
  · rw [← hostPages, remoteEntries_eq fun piece piece_mem => cutBuffer_inPage piece_mem]

end

/-! ## The whole way -/

section

variable {args : SgdmaArgs} {pinned : PinPages}

theorem dmaRequestPage_pagesNr (page : ByteMem) (few : pinned.pagesNr < 2 ^ 64) :
    (dmaRequestPage args pinned page).get ActionDma.pagesNr = pinned.pagesNr := by
  rw [dmaRequestPage, ByteMem.get_set_of_disjoint (by decide), ByteMem.get_set_same]
  exact Nat.mod_eq_of_lt few

theorem dmaRequestPage_len (page : ByteMem) (inSpace : pinned.len < 2 ^ 64) :
    (dmaRequestPage args pinned page).get ActionDma.len = pinned.len := by
  rw [dmaRequestPage, ByteMem.get_set_of_disjoint (by decide),
    ByteMem.get_set_of_disjoint (by decide), ByteMem.get_setInt_of_disjoint (by decide),
    ByteMem.get_set_same]
  exact Nat.mod_eq_of_lt inSpace

theorem get_dmaRequestPage_phyAddr (page : ByteMem) :
    (dmaRequestPage args pinned page).get ActionDma.phyAddr = (args.phyAddr % 2 ^ 64).toNat := by
  have width : 256 ^ ActionDma.phyAddr.width = 2 ^ 64 := by norm_num [ActionDma.phyAddr, dataField]
  have small : (args.phyAddr % 2 ^ 64).toNat < 2 ^ 64 := by omega
  rw [dmaRequestPage, ByteMem.get_set_of_disjoint (by decide),
    ByteMem.get_set_of_disjoint (by decide), ByteMem.get_setInt_of_disjoint (by decide),
    ByteMem.get_set_of_disjoint (by decide), ByteMem.setInt, ByteMem.get_set_same, width]
  have modulus : (256 : ℤ) ^ ActionDma.phyAddr.width = 2 ^ 64 := by exact_mod_cast width
  rw [modulus, Nat.mod_eq_of_lt small]

theorem getInt_dmaRequestPage_doWrite (page : ByteMem) :
    (dmaRequestPage args pinned page).getInt ActionDma.doWrite = if args.doWrite then 1 else 0 := by
  rw [dmaRequestPage, ByteMem.getInt_set_of_disjoint (by decide),
    ByteMem.getInt_set_of_disjoint (by decide), ByteMem.getInt_setInt_of_disjoint (by decide),
    ByteMem.getInt_set_of_disjoint (by decide), ByteMem.getInt_setInt_of_disjoint (by decide),
    ByteMem.getInt_setInt_of_disjoint (by decide), ByteMem.getInt_setInt_same]
  split <;> decide

/-- The request of the manager for the records of a pinned buffer. -/
structure FhHostIoctlDma.AsksFor (dma : FhHostIoctlDma) (args : SgdmaArgs) (pinned : PinPages)
    (ctx : CtxStruct) : Prop where
  chunks : dma.chunks = pinned.pageChunks.map (translated ctx)
  chunksNr : dma.chunksNr = pinned.pagesNr
  len : dma.len = pinned.len
  phyAddr : dma.phyAddr = (args.phyAddr % 2 ^ 64).toNat
  doWrite : dma.doWrite = if args.doWrite then 1 else 0

theorem doDma_calls (outcome : FaultOutcome) {manager : Manager} {page buffer : ByteMem}
    (announced : manager.transfer.infoCtx = FhAction.dma.code)
    (allocated : manager.transfer.ptr = some buffer)
    (received : readChunks buffer pinned.pagesNr = pinned.pageChunks)
    (mapped : ∀ chunk ∈ pinned.pageChunks, getAddrMapVaddrVerify manager.ctx chunk.addr ≠ 0)
    (pagesNr : page.get ActionDma.pagesNr = pinned.pagesNr) :
    ∃ fd mem,
      doDma outcome manager page = some (dmaClean outcome (manager.addCall (.iocDma fd
        (dmaRequest manager page mem) outcome.dmaRet.toInt)) page outcome.dmaRet.toInt) ∧
      readChunks mem pinned.pagesNr = pinned.pageChunks.map (translated manager.ctx) := by
  rw [← pinned.length_pageChunks] at received
  rcases readChunks_translateChunks received mapped with ⟨mem, done, records⟩
  rw [pinned.length_pageChunks] at done records
  have present : ¬(pinned.pagesNr ≠ 0 ∧ (some buffer = none)) := by simp
  refine ⟨page.getInt ActionCommon.fd, mem, ?_, records⟩
  simp only [doDma, announced, ne_eq, not_true_eq_false, ↓reduceIte, allocated, pagesNr, present,
    Option.getD_some, done]

theorem getInt_dmaClean_ret (outcome : FaultOutcome) (manager : Manager) (page : ByteMem)
    (ret : Int32) :
    ((dmaClean outcome manager page ret.toInt).2.2.set FaultData.turn FhTurn.guest.code).getInt
      ActionCommon.ret = ret.toInt := by
  have lower := ret.le_toInt
  have upper := ret.toInt_lt
  rw [ByteMem.getInt_set_of_disjoint (by decide), dmaClean, setRetAndErrNo,
    ByteMem.getInt_setInt_of_disjoint (by decide), ByteMem.getInt_setInt_same]
  have width : 256 ^ ActionCommon.ret.width = 2 ^ 64 := by decide
  rw [width]
  exact Int.bmod_eq_of_le (by omega) (by omega)

/-- What the guest gets for the result of a device call: an answer without an error does not reach
it if the result is negative. -/
def dmaValue (ret : Int32) : ℤ := if 0 ≤ ret.toInt then ret.toInt else -Errno.ENXIO.code

theorem run_escapeChecked_dmaClean {machine : Machine Host} {outcome : FaultOutcome}
    {manager : Manager} {page : ByteMem} {ret : Int32} (serving : machine.peer.serving = true)
    (handled : handleAction machine.peer.outcome machine.peer.manager
      (escapePage .dma (machine.counter + 1) machine.page) =
        some (dmaClean outcome manager page ret.toInt)) :
    (escapeChecked .dma id do
        let ret ← Prog.loadInt ActionCommon.ret
        pure (i32 ret)).run Host.onEscape machine =
      (.done (dmaValue ret), (escaping .dma machine).answered Host.onEscape) := by
  have turn := escapePage_turn .dma (machine.counter + 1) machine.page
  rw [escapeChecked, Prog.run_bind_of_done _ (run_fhDoFaulthook Host.onEscape .dma machine)]
  by_cases nonneg : 0 ≤ ret.toInt
  · have answer : ((escaping .dma machine).answered Host.onEscape).page =
        (dmaClean outcome manager page ret.toInt).2.2.set FaultData.turn FhTurn.guest.code :=
      congrArg Prod.snd (Host.onEscape_of_handled serving turn handled nonneg)
    have reply := getInt_dmaClean_ret outcome manager page ret
    rw [← answer] at reply
    have back : ((escaping .dma machine).answered Host.onEscape).page.get FaultData.turn =
        FhTurn.guest.code := by
      rw [answer, ByteMem.get_set_same]
      rfl
    rw [if_neg (not_not.mpr back), if_neg (lt_irrefl _),
      Prog.run_bind_of_done _ (Prog.run_loadInt _ _ _), reply, if_neg (not_lt.mpr nonneg),
      Prog.run_bind_of_done _ (Prog.run_loadInt _ _ _), reply, i32_toInt, dmaValue, if_pos nonneg,
      Prog.run_pure]
  · have answer : ((escaping .dma machine).answered Host.onEscape).page =
        (dmaClean outcome manager page ret.toInt).2.2 :=
      Host.onEscape_of_refused serving turn handled (not_le.mp nonneg)
    have kept := @HeaderEq.get_eq _ _ FaultData.turn (handleAction_headerEq handled) (by decide)
    have notBack : ((escaping .dma machine).answered Host.onEscape).page.get FaultData.turn ≠
        FhTurn.guest.code := by
      rw [answer, kept, turn]
      decide
    rw [if_pos notBack, if_pos (by decide), Prog.run_pure, dmaValue, if_neg nonneg]
    rfl

theorem run_dmaEscape_calls {machine : Machine Host} {buffer : ByteMem}
    (serving : machine.peer.serving = true)
    (announced : machine.peer.manager.transfer.infoCtx = FhAction.dma.code)
    (allocated : machine.peer.manager.transfer.ptr = some buffer)
    (received : readChunks buffer pinned.pagesNr = pinned.pageChunks)
    (mapped : ∀ chunk ∈ pinned.pageChunks,
      getAddrMapVaddrVerify machine.peer.manager.ctx chunk.addr ≠ 0)
    (few : pinned.pagesNr < 2 ^ 64) (inSpace : pinned.len < 2 ^ 64) :
    ∃ final fd dma,
      (dmaEscape args pinned).run Host.onEscape machine =
        (.done (dmaValue machine.peer.outcome.dmaRet), final) ∧
      final.peer.manager.calls = machine.peer.manager.calls ++
        [.iocDma fd dma machine.peer.outcome.dmaRet.toInt] ∧
      dma.AsksFor args pinned machine.peer.manager.ctx := by
  obtain ⟨request, request_eq⟩ : ∃ request, request =
      escapePage .dma (machine.counter + 1) (dmaRequestPage args pinned machine.page) := ⟨_, rfl⟩
  have turn : request.get FaultData.turn = FhTurn.host.code := by
    rw [request_eq, escapePage_turn]
  have pagesNr : request.get ActionDma.pagesNr = pinned.pagesNr := by
    rw [request_eq, get_escapePage (by decide), dmaRequestPage_pagesNr _ few]
  have len : request.get ActionDma.len = pinned.len := by
    rw [request_eq, get_escapePage (by decide), dmaRequestPage_len _ inSpace]
  have phyAddr : request.get ActionDma.phyAddr = (args.phyAddr % 2 ^ 64).toNat := by
    rw [request_eq, get_escapePage (by decide), get_dmaRequestPage_phyAddr]
  have doWrite : request.getInt ActionDma.doWrite = if args.doWrite then 1 else 0 := by
    rw [request_eq, ByteMem.getInt, get_escapePage (by decide), ← ByteMem.getInt,
      getInt_dmaRequestPage_doWrite]
  rcases doDma_calls machine.peer.outcome announced allocated received mapped pagesNr
    with ⟨fd, mem, served, records⟩
  have asks : (dmaRequest machine.peer.manager request mem).AsksFor args pinned
      machine.peer.manager.ctx := by
    refine ⟨?_, pagesNr, len, ?_, ?_⟩
    · rw [dmaRequest, pagesNr, records]
    · rw [← phyAddr, dmaRequest]
    · rw [← doWrite, dmaRequest]
  have handled : handleAction machine.peer.outcome machine.peer.manager request =
      some (dmaClean machine.peer.outcome (machine.peer.manager.addCall (.iocDma fd
        (dmaRequest machine.peer.manager request mem) machine.peer.outcome.dmaRet.toInt)) request
          machine.peer.outcome.dmaRet.toInt) := by
    have known : FhAction.ofCode (request.get FaultData.action) = some .dma := by
      rw [request_eq, escapePage_action, FhAction.ofCode_code]
    simp only [handleAction, known, served]
  have escapes : (dmaEscape args pinned).run Host.onEscape machine =
      (.done (dmaValue machine.peer.outcome.dmaRet), (escaping .dma { machine with
        page := dmaRequestPage args pinned machine.page }).answered Host.onEscape) := by
    rw [run_dmaEscape]
    rw [request_eq] at handled
    exact @run_escapeChecked_dmaClean
      { machine with page := dmaRequestPage args pinned machine.page } _ _ _ _ serving handled
  refine ⟨_, fd, _, escapes, ?_, asks⟩
  simp only [Machine.answered, escaping, ← request_eq, Host.onEscape_manager serving turn handled]
  rfl

theorem Pinned.chunk_inRange {kernel : PinKernel} {buf count : ℕ}
    (result : Pinned kernel buf count pinned) : ∀ chunk ∈ pinned.pageChunks, chunk.InRange := by
  intro chunk chunk_mem
  rw [result.chunks] at chunk_mem
  rcases List.mem_map.mp chunk_mem with ⟨piece, piece_mem, rfl⟩
  have inPage := cutBuffer_inPage piece_mem
  have pfn_lt := piece.page.pfn_lt
  simp only [pageSize] at inPage
  refine ⟨?_, ?_, ?_⟩ <;> simp only [Piece.toChunk] <;> omega

theorem Pinned.pagesNr_eq {kernel : PinKernel} {buf count : ℕ}
    (result : Pinned kernel buf count pinned) : pinned.pagesNr = pageCount buf count :=
  pinned.length_pages.symm.trans result.length

theorem Pinned.pagesNr_lt {kernel : PinKernel} {buf count : ℕ}
    (result : Pinned kernel buf count pinned) (inSpace : buf < 2 ^ 64)
    (capped : count ≤ 0x7ffff000) : pinned.pagesNr < 2 ^ 27 := by
  rw [result.pagesNr_eq, pageCount_eq inSpace (by omega)]
  simp only [pagesCovered, offsetInPage, pageSize]
  omega

theorem Pinned.chunk_mapped {kernel : PinKernel} {buf count : ℕ} {ctx : CtxStruct}
    (result : Pinned kernel buf count pinned)
    (mapped : ∀ page ∈ pinned.pages, getAddrMapVaddrVerify ctx page.pfn ≠ 0) :
    ∀ chunk ∈ pinned.pageChunks, getAddrMapVaddrVerify ctx chunk.addr ≠ 0 := by
  intro chunk chunk_mem
  have addr_mem : chunk.addr ∈ pinned.pageChunks.map PageChunk.addr :=
    List.mem_map_of_mem chunk_mem
  rw [result.addr_eq] at addr_mem
  rcases List.mem_map.mp addr_mem with ⟨page, page_mem, addr⟩
  rw [← addr]
  exact mapped page page_mem

/-- Under the lock, the records of a pinned buffer go over to the manager, and the manager calls
the driver with their translations. -/
theorem run_sgdmaLocked_asks {machine : Machine Host} (free : machine.locked = false)
    (serving : machine.peer.serving = true) (allocated : machine.peer.outcome.malloc ≠ none)
    (pos : 0 < pinned.pagesNr) (few : pinned.pagesNr < 2 ^ 27) (inSpace : pinned.len < 2 ^ 64)
    (inRange : ∀ chunk ∈ pinned.pageChunks, chunk.InRange)
    (mapped : ∀ chunk ∈ pinned.pageChunks,
      getAddrMapVaddrVerify machine.peer.manager.ctx chunk.addr ≠ 0) :
    ∃ rounds final fd dma ret, (∀ fuel, rounds ≤ fuel →
        (sgdmaLocked fuel args pinned).run Host.onEscape machine =
          (.done (dmaValue ret), final)) ∧
      final.peer.manager.calls = machine.peer.manager.calls ++ [.iocDma fd dma ret.toInt] ∧
      dma.AsksFor args pinned machine.peer.manager.ctx := by
  have length : (chunkBytes pinned.pageChunks).length = 24 * pinned.pagesNr := by
    rw [length_chunkBytes, pinned.length_pageChunks, PageChunk.size]
  rcases run_transferChunkToHost (Int32.ofInt FhAction.dma.code) { machine with locked := true }
    (show 0 < (chunkBytes pinned.pageChunks).length by omega) (by omega)
    with ⟨ret, sent, transfers, returned, receives⟩
  have success : ret = 0 := returned.mpr ⟨serving, allocated, by omega⟩
  have receiving := receives success
  rcases receiving.delivered.buffer with ⟨buffer, buffer_eq, content⟩
  have received : readChunks buffer pinned.pagesNr = pinned.pageChunks := by
    rw [length, ← pinned.length_pageChunks] at content
    rw [← pinned.length_pageChunks]
    exact readChunks_of_readBytes inRange content
  have announced : sent.peer.manager.transfer.infoCtx = FhAction.dma.code := by
    rw [receiving.infoCtx]
    decide
  rcases @run_dmaEscape_calls args pinned sent buffer receiving.serving announced buffer_eq received
    (by rw [receiving.ctx]; exact mapped) (by omega) inSpace
    with ⟨final, fd, dma, escapes, calls, asks⟩
  rw [receiving.calls] at calls
  rw [receiving.ctx] at asks
  refine ⟨(chunkBytes pinned.pageChunks).length, { final with locked := false }, fd, dma,
    sent.peer.outcome.dmaRet, ?_, calls, asks⟩
  intro fuel enough
  rw [sgdmaLocked, Prog.run_bind_of_done _ (Prog.run_acquire_of_free _ free),
    Prog.run_bind_of_done _ (transfers fuel enough), if_neg (by omega),
    Prog.run_bind_of_done _ escapes, Prog.run_bind_of_done _ (Prog.run_release _ final),
    Prog.run_pure]

theorem run_sgdmaLocked_calls {machine : Machine Host} (free : machine.locked = false)
    (serving : machine.peer.serving = true) (allocated : machine.peer.outcome.malloc ≠ none)
    (pos : 0 < pinned.pagesNr) (few : pinned.pagesNr < 2 ^ 27) (inSpace : pinned.len < 2 ^ 64)
    (inRange : ∀ chunk ∈ pinned.pageChunks, chunk.InRange)
    (mapped : ∀ chunk ∈ pinned.pageChunks,
      getAddrMapVaddrVerify machine.peer.manager.ctx chunk.addr ≠ 0) :
    ∃ rounds value final fd dma ret, (∀ fuel, rounds ≤ fuel →
        (sgdmaLocked fuel args pinned).run Host.onEscape machine = (.done value, final)) ∧
      final.peer.manager.calls = machine.peer.manager.calls ++ [.iocDma fd dma ret] ∧
      dma.chunks = pinned.pageChunks.map (translated machine.peer.manager.ctx) ∧
      dma.chunksNr = pinned.pagesNr ∧ dma.len = pinned.len := by
  rcases @run_sgdmaLocked_asks args pinned machine free serving allocated pos few inSpace inRange
    mapped with ⟨rounds, final, fd, dma, ret, runs, calls, asks⟩
  exact ⟨rounds, _, final, fd, dma, _, runs, calls, asks.chunks, asks.chunksNr, asks.len⟩

end

/--
For a buffer that the plain driver rejects, the guest returns the same error and
leaves page and host alone. For a buffer that the plain driver accepts, the guest
makes the manager call the host driver, whose remote path builds the scatterlist
of the plain driver with every page replaced by the host page of its translated
address. It accepts the buffer when different addresses have different host pages.
-/
theorem remote_sgl_eq_plain {args : SgdmaArgs} {machine : Machine Host} {plain : PlainKernel}
    {remote : RemoteKernel} {hostPage : ℕ → Page} {pages : List Page}
    (nonempty : 1 ≤ args.count.toNat) (capped : args.count.toNat ≤ 0x7ffff000)
    (tableAlloc : plain.tableAlloc = args.kernel.pinPagesAlloc)
    (pagesAlloc : plain.pagesAlloc = args.kernel.pagesAlloc)
    (plainPages : plain.getUserPagesFast = .ok pages)
    (guestPages : args.kernel.getUserPagesFast = .ok pages)
    (room : ActionDma.size + pageCount args.buf.toNat args.count.toNat * PageChunk.size ≤
      args.escapeSize)
    (free : machine.locked = false) (serving : machine.peer.serving = true)
    (allocated : machine.peer.outcome.malloc ≠ none)
    (mapped : ∀ page ∈ pages, getAddrMapVaddrVerify machine.peer.manager.ctx page.pfn ≠ 0)
    (injective : ∀ first ∈ pages, ∀ second ∈ pages,
      getAddrMapVaddrVerify machine.peer.manager.ctx first.pfn =
        getAddrMapVaddrVerify machine.peer.manager.ctx second.pfn → first.pfn = second.pfn)
    (serves : remote.Serves hostPage machine.peer.manager.ctx pages) :
    (∀ error, charSgdmaMapUserBufToSgl plain args.buf.toNat args.count.toNat = .error error →
      ∀ fuel, (charSgdmaReadWrite fuel args).run Host.onEscape machine =
        (.done error, machine)) ∧
    (∀ sgl, charSgdmaMapUserBufToSgl plain args.buf.toNat args.count.toNat = .ok sgl →
      ∃ rounds value final fd dma ret, (∀ fuel, rounds ≤ fuel →
          (charSgdmaReadWrite fuel args).run Host.onEscape machine = (.done value, final)) ∧
        final.peer.manager.calls = machine.peer.manager.calls ++ [.iocDma fd dma ret] ∧
        (∀ entries, mapRemotePagesToSgl remote dma.len dma = (0, some entries) →
          entries = sgl.map (SgEntry.relocate hostPage machine.peer.manager.ctx)) ∧
        ((∀ first ∈ pages, ∀ second ∈ pages,
            relocated hostPage machine.peer.manager.ctx first =
              relocated hostPage machine.peer.manager.ctx second →
            getAddrMapVaddrVerify machine.peer.manager.ctx first.pfn =
              getAddrMapVaddrVerify machine.peer.manager.ctx second.pfn) →
          mapRemotePagesToSgl remote dma.len dma =
            (0, some (sgl.map (SgEntry.relocate hostPage machine.peer.manager.ctx))))) := by
  have inSpace : args.buf.toNat < 2 ^ 64 := args.buf.toNat_lt
  rw [charSgdmaMapUserBufToSgl_eq inSpace capped tableAlloc pagesAlloc
    (plainPages.trans guestPages.symm)]
  cases pinning : fhPinPages args.kernel args.buf.toNat args.count.toNat with
  | error error =>
      constructor
      · intro _ rejected fuel
        cases rejected
        simp only [charSgdmaReadWrite, pinning]
        rfl
      · intro _ accepted
        cases accepted
  | ok pinned =>
      constructor
      · intro _ rejected
        cases rejected
      intro _ accepted
      cases accepted
      have result := fhPinPages_ok pinning
      have pages_eq : pinned.pages = pages := by
        have both := result.pages.symm.trans guestPages
        cases both
        rfl
      subst pages_eq
      have few := result.pagesNr_lt inSpace capped
      rcases @run_sgdmaLocked_calls args pinned machine free serving allocated result.pos
        few (by rw [result.len]; omega) result.chunk_inRange (result.chunk_mapped mapped)
        with ⟨rounds, value, final, fd, dma, ret, runs, calls, chunks, chunksNr, len⟩
      have records : dma.chunks = (cutBuffer pinned.pages args.buf.toNat args.count.toNat).1.map
          fun piece => translated machine.peer.manager.ctx piece.toChunk := by
        rw [chunks, result.chunks, List.map_map]
        rfl
      have length := pinned.length_pages
      have built := mapRemotePagesToSgl_eq serves (by rw [length]; exact result.pos) (by omega)
        (by omega) result.complete records (chunksNr.trans length.symm)
      refine ⟨rounds, value, final, fd, dma, ret, ?_, calls, ?_, ?_⟩
      · intro fuel enough
        simp only [charSgdmaReadWrite, pinning, result.pagesNr_eq, not_lt.mpr room, ↓reduceIte]
        exact runs fuel enough
      · intro entries success
        rw [len, result.len, built] at success
        split at success
        · cases success
        · cases success
          rfl
      · intro distinct
        rw [len, result.len, built, hasDuplicate_map, result.noDuplicate]
        · rfl
        · intro first first_mem second second_mem same
          exact Page.ext (injective first first_mem second second_mem
            (distinct first first_mem second second_mem same))

def Machine.twoMapped : Machine Host :=
  { Machine.cleared with
    peer :=
      { Machine.cleared.peer with
        manager :=
          { Manager.awaitingDma with
            ctx :=
              { Manager.awaitingDma.ctx with
                addrMap := fun index => UInt64.ofNat (0x1000 * (index + 1)) } } } }

def SgdmaArgs.acrossPages : SgdmaArgs where
  fd := 3
  buf := 0x7f0800
  count := 4096
  phyAddr := 0
  doWrite := true
  doAperture := false
  kernel := ⟨true, true, .ok [Page.ofPfn 1, Page.ofPfn 2]⟩
  escapeSize := 4096

theorem remote_sgl_eq_plain_acrossPages :
    ∃ rounds value final fd dma ret, (∀ fuel, rounds ≤ fuel →
        (charSgdmaReadWrite fuel .acrossPages).run Host.onEscape .twoMapped =
          (.done value, final)) ∧
      final.peer.manager.calls = [.iocDma fd dma ret] ∧
      mapRemotePagesToSgl
          ⟨true, true, fun _ => true, fun _ vaddr => .pinned (Page.ofPfn (vaddr / pageSize + 7))⟩
          dma.len dma =
        (0, some [sgSetPage (Page.ofPfn 8) 2048 2048, sgSetPage (Page.ofPfn 9) 2048 0]) := by
  have both := @remote_sgl_eq_plain .acrossPages .twoMapped
    ⟨true, true, .ok [Page.ofPfn 1, Page.ofPfn 2]⟩
    ⟨true, true, fun _ => true, fun _ vaddr => .pinned (Page.ofPfn (vaddr / pageSize + 7))⟩
    (fun vaddr => Page.ofPfn (vaddr / pageSize + 7)) [Page.ofPfn 1, Page.ofPfn 2]
    (by decide) (by decide) rfl rfl rfl rfl (by decide) rfl rfl (by decide) (by decide)
    (by decide) ⟨rfl, rfl, fun _ => rfl, fun _ _ _ => rfl⟩
  rcases both.2 [sgSetPage (Page.ofPfn 1) 2048 2048, sgSetPage (Page.ofPfn 2) 2048 0] (by decide)
    with ⟨rounds, value, final, fd, dma, ret, runs, calls, -, built⟩
  exact ⟨rounds, value, final, fd, dma, ret, runs, calls, built (by decide)⟩

end Acai
