import Acai.Guest.FileOps
import Acai.Kernel.PageAllocator

/-!
# The pages behind a guest mapping

`fh_bridge_mmap` allocates pages, tells the host their frames, and maps them into
user space. This file gives the function again with the calls that it makes of the
page allocator and of `remap_pfn_range`, and `vm_close`, which gives the pages back.

Sizes in bytes, numbers of pages and allocation orders get mixed up here. The pages
are allocated with the local variable `order`, which stays zero, so a block is one
page whatever the length of the mapping. The order that frees the block is kept in
`mmap_info` and is the number of pages, rounded up to a power of two. The frames in
the list for the host are `PAGE_SIZE` apart.

`vm_close` is not installed: the line that would set `vm_ops` is commented out.
-/

namespace Acai

/-- `struct mmap_info`; the data pointer is given by the frame that it points to. -/
structure MmapInfo where
  data : UInt64
  dataSize : ℕ
  order : UInt64

namespace MmapInfo

/-- What `free_pages` is asked to free; its order is an `unsigned int`. -/
def freed (info : MmapInfo) : PageBlock := ⟨info.data.toNat, u32 info.order.toNat⟩

end MmapInfo

namespace MmapArgs

/-- Whole pages of the mapping (`size >> PAGE_SHIFT`). -/
def pages (args : MmapArgs) : ℕ := args.size.toNat / pageSize

def order : ℕ := 0

def info (args : MmapArgs) (pfnStart : UInt64) : MmapInfo where
  data := pfnStart
  dataSize := args.size.toNat
  order := roundupPowOfTwo (UInt64.ofNat args.pages)

end MmapArgs

/-- `fh_bridge_mmap` with the `mmap_info` that it leaves in the mapping and its calls. -/
def fhBridgeMmapCalls (fuel : ℕ) (args : MmapArgs) :
    Prog (ℤ × Option MmapInfo × List PageCall) :=
  if !args.infoAlloc then pure (-Errno.ENOMEM.code, none, [])
  else if args.size ≤ 0 then pure (-Errno.EINVAL.code, none, [])
  else
    match args.pfnStart with
    | none => pure (-Errno.ENOMEM.code, none, [.getFreePages MmapArgs.order none])
    | some pfnStart => do
        let info := args.info pfnStart
        let allocated := PageCall.getFreePages MmapArgs.order (some pfnStart.toNat)
        Prog.storeBytes FaultData.data (List.replicate ActionMmapDevice.size 0)
        Prog.storeInt ActionCommon.fd args.fd
        Prog.storeField ActionMmapDevice.vmStart args.vmStart.toNat
        Prog.storeField ActionMmapDevice.vmEnd args.vmEnd.toNat
        Prog.storeField ActionMmapDevice.vmPgoff args.vmPgoff.toNat
        Prog.storeField ActionMmapDevice.vmFlags (args.vmFlags ||| MmapArgs.addedFlags).toNat
        Prog.storeField ActionMmapDevice.vmPageProt args.vmPageProt.toNat
        Prog.storeField ActionMmapDevice.pfnSize args.pages
        mmapPfnLoop pfnStart.toNat fuel 0
        let remapped := PageCall.remapPfnRange pfnStart.toNat args.size.toNat args.remapRet
        escapeChecked .mmap (fun error => (error, none, [allocated, .freePages info.freed]))
          (pure (if args.remapRet ≠ 0 then
              (args.remapRet, none, [allocated, remapped, .freePages info.freed])
            else (0, some info, [allocated, remapped])))

/-- The loop that lists the frames of a block on the page, in the fields of one of the actions. It
is unrolled `fuel` times. -/
def pfnLoop (pfnSize : Field) (pfn : ℕ → Field) (pfnStart : ℕ) : ℕ → ℕ → Prog Unit
  | 0, _ => .diverge
  | fuel + 1, index => do
      let count ← Prog.loadField pfnSize
      if index < count then
        Prog.storeField (pfn index) (pfnStart + index * pageSize)
        pfnLoop pfnSize pfn pfnStart fuel (index + 1)
      else pure ()

theorem map_escapeChecked {α β : Type} (f : α → β) (action : FhAction) (fail : ℤ → α)
    (value : α) :
    f <$> escapeChecked action fail (pure value) =
      escapeChecked action (fun error => f (fail error)) (pure (f value)) := by
  rw [escapeChecked, escapeChecked, Prog.map_bind]
  congr 1
  funext ret
  split
  · exact Prog.map_pure f _
  · rw [Prog.map_bind]
    congr 1
    funext hostRet
    split
    · rw [Prog.map_bind]
      rfl
    · exact Prog.map_pure f _

theorem fhBridgeMmapCalls_fst (fuel : ℕ) (args : MmapArgs) :
    Prod.fst <$> fhBridgeMmapCalls fuel args = fhBridgeMmap fuel args := by
  rw [fhBridgeMmapCalls, fhBridgeMmap]
  split
  · rfl
  split
  · rfl
  cases args.pfnStart with
  | none => rfl
  | some pfnStart =>
      simp only [Prog.map_bind, map_escapeChecked, MmapArgs.pages, apply_ite Prod.fst]
      rfl

/-! ## The loop over the frames -/

/-- The page with the first `count` entries of the list. -/
def pfnListPage (pfn : ℕ → Field) (pfnStart : ℕ) : ℕ → ByteMem → ByteMem
  | 0, base => base
  | count + 1, base =>
      (pfnListPage pfn pfnStart count base).set (pfn count) (pfnStart + count * pageSize)

section

variable {pfnSize : Field} {pfn : ℕ → Field} {pfnStart : ℕ}

theorem get_pfnListPage (apart : ∀ index, (pfn index).Disjoint pfnSize) (count : ℕ)
    (base : ByteMem) : (pfnListPage pfn pfnStart count base).get pfnSize = base.get pfnSize := by
  induction count with
  | zero => rfl
  | succ count ih => rw [pfnListPage, ByteMem.get_set_of_disjoint (apart count), ih]

/-- With enough fuel the loop writes as many frames as the page asks for. -/
theorem run_pfnLoop {σ : Type} (answer : σ → ByteMem → σ × ByteMem) (machine : Machine σ)
    (apart : ∀ index, (pfn index).Disjoint pfnSize) {base : ByteMem} {count index : ℕ}
    (count_eq : base.get pfnSize = count) (remains : index ≤ count) {fuel : ℕ}
    (enough : count - index < fuel) :
    (pfnLoop pfnSize pfn pfnStart fuel index).run answer
        { machine with page := pfnListPage pfn pfnStart index base } =
      (.done (), { machine with page := pfnListPage pfn pfnStart count base }) := by
  induction fuel generalizing index with
  | zero => omega
  | succ fuel ih =>
      rw [pfnLoop, Prog.run_bind_of_done _ (Prog.run_loadField _ _ _),
        get_pfnListPage apart, count_eq]
      by_cases more : index < count
      · rw [if_pos more, Prog.run_bind_of_done _ (Prog.run_storeField _ _ _ _)]
        exact ih (by omega) (by omega)
      · have last : index = count := by omega
        rw [if_neg more, Prog.run_pure, last]

end

theorem mmapPfnLoop_eq_pfnLoop (pfnStart fuel index : ℕ) :
    mmapPfnLoop pfnStart fuel index =
      pfnLoop ActionMmapDevice.pfnSize ActionMmapDevice.pfn pfnStart fuel index := by
  induction fuel generalizing index with
  | zero => rfl
  | succ fuel ih => simp only [mmapPfnLoop, pfnLoop, ih]

theorem pfnPage_eq_pfnListPage (pfnStart count : ℕ) (base : ByteMem) :
    pfnPage pfnStart count base = pfnListPage ActionMmapDevice.pfn pfnStart count base := by
  induction count with
  | zero => rfl
  | succ count ih => rw [pfnPage, pfnListPage, ih]

/-! ## How a mapping is set up -/

namespace MmapArgs

/-- The function gets pages for the mapping. -/
structure GetsBlock (args : MmapArgs) (pfnStart : UInt64) : Prop where
  infoAlloc : args.infoAlloc = true
  size : 0 < args.size
  pfnStart : args.pfnStart = some pfnStart

/-- The page that the function has filled in when it escapes. -/
def request (args : MmapArgs) (pfnStart : UInt64) (base : ByteMem) : ByteMem :=
  pfnPage pfnStart.toNat args.pages (mmapPage args base)

end MmapArgs

section

variable {σ : Type} (answer : σ → ByteMem → σ × ByteMem)

def Machine.requesting (machine : Machine σ) (args : MmapArgs) (pfnStart : UInt64) : Machine σ :=
  escaping .mmap { machine with page := args.request pfnStart machine.page }

/-- The host takes up the escape and reports no failure. -/
def Machine.Accepted (machine : Machine σ) : Prop :=
  (machine.answered answer).page.get FaultData.turn = FhTurn.guest.code ∧
    0 ≤ (machine.answered answer).page.getInt ActionCommon.ret

/-- The host accepts the mapping and the frames are mapped into user space. -/
structure MmapArgs.Maps (args : MmapArgs) (machine : Machine σ) (pfnStart : UInt64) : Prop where
  accepted : (machine.requesting args pfnStart).Accepted answer
  remapRet : args.remapRet = 0

/-- How `fh_bridge_mmap` ends: its result, what it leaves in the mapping, its calls, and the
machine. -/
inductive MmapEnding (args : MmapArgs) (machine : Machine σ) :
    ℤ → Option MmapInfo → List PageCall → Machine σ → Prop where
  | noBlock {ret : ℤ} {calls : List PageCall} (noBlock : ∀ pfnStart, ¬args.GetsBlock pfnStart)
      (calls_eq : calls = [] ∨ calls = [.getFreePages MmapArgs.order none]) :
      MmapEnding args machine ret none calls machine
  | failed {ret : ℤ} {pfnStart : UInt64} {remaps : List PageCall}
      (block : args.GetsBlock pfnStart) (failed : ¬args.Maps answer machine pfnStart)
      (remaps_eq : remaps = [] ∨
        remaps = [.remapPfnRange pfnStart.toNat args.size.toNat args.remapRet]) :
      MmapEnding args machine ret none
        (.getFreePages MmapArgs.order (some pfnStart.toNat) ::
          (remaps ++ [.freePages (args.info pfnStart).freed]))
        ((machine.requesting args pfnStart).answered answer)
  | mapped {pfnStart : UInt64} (block : args.GetsBlock pfnStart)
      (maps : args.Maps answer machine pfnStart) :
      MmapEnding args machine 0 (some (args.info pfnStart))
        [.getFreePages MmapArgs.order (some pfnStart.toNat),
          .remapPfnRange pfnStart.toNat args.size.toNat args.remapRet]
        ((machine.requesting args pfnStart).answered answer)

/-- The check of the reply, in a machine that has the request on its page. -/
theorem run_escapeChecked_cases {α : Type} (action : FhAction) (fail : ℤ → α) (value : α)
    (machine : Machine σ) :
    ((escaping action machine).Accepted answer ∧
        (escapeChecked action fail (pure value)).run answer machine =
          (.done value, (escaping action machine).answered answer)) ∨
      ¬(escaping action machine).Accepted answer ∧
        ∃ error, (escapeChecked action fail (pure value)).run answer machine =
          (.done (fail error), (escaping action machine).answered answer) := by
  rw [escapeChecked, Prog.run_bind_of_done _ (run_fhDoFaulthook answer action machine)]
  by_cases turn : ((escaping action machine).answered answer).page.get FaultData.turn =
      FhTurn.guest.code
  · rw [if_neg (not_not.mpr turn), if_neg (lt_irrefl _),
      Prog.run_bind_of_done _ (Prog.run_loadInt _ _ _)]
    by_cases refused :
        ((escaping action machine).answered answer).page.getInt ActionCommon.ret < 0
    · rw [if_pos refused, Prog.run_bind_of_done _ (Prog.run_loadInt _ _ _)]
      exact Or.inr ⟨fun accepted => absurd accepted.2 (not_le.mpr refused), _, rfl⟩
    · rw [if_neg refused]
      exact Or.inl ⟨⟨turn, not_lt.mp refused⟩, rfl⟩
  · rw [if_pos turn, if_pos (by decide)]
    exact Or.inr ⟨fun accepted => turn accepted.1, _, rfl⟩

theorem MmapArgs.size_lt (args : MmapArgs) : args.size < 2 ^ 63 :=
  Int.bmod_lt (x := (args.vmEnd.toNat : ℤ) - args.vmStart.toNat) (m := 2 ^ 64) (by decide)

theorem MmapArgs.pages_lt (args : MmapArgs) : args.pages < 2 ^ 62 := by
  have size_lt := args.size_lt
  simp only [MmapArgs.pages, pageSize]
  omega

theorem mmapPage_get_pfnSize (args : MmapArgs) (base : ByteMem) :
    (mmapPage args base).get ActionMmapDevice.pfnSize = args.pages := by
  have small := args.pages_lt
  rw [mmapPage, ByteMem.get_set_same]
  apply Nat.mod_eq_of_lt
  have width : 256 ^ ActionMmapDevice.pfnSize.width = 2 ^ 64 := by decide
  simp only [MmapArgs.pages] at small
  omega

theorem pfn_disjoint_pfnSize (index : ℕ) :
    (ActionMmapDevice.pfn index).Disjoint ActionMmapDevice.pfnSize := by
  right
  simp only [ActionMmapDevice.pfn, ActionMmapDevice.pfnSize, dataField]
  omega

theorem run_mmapPfnLoop_request {args : MmapArgs} (machine : Machine σ) (pfnStart : UInt64)
    {fuel : ℕ} (enough : args.pages < fuel) :
    (mmapPfnLoop pfnStart.toNat fuel 0).run answer
        { machine with page := mmapPage args machine.page } =
      (.done (), { machine with page := args.request pfnStart machine.page }) := by
  rw [mmapPfnLoop_eq_pfnLoop, MmapArgs.request, pfnPage_eq_pfnListPage]
  exact run_pfnLoop answer machine pfn_disjoint_pfnSize (mmapPage_get_pfnSize args machine.page)
    (Nat.zero_le _) enough

/-- Once it has its pages, the function fills in the request and escapes. -/
theorem run_fhBridgeMmapCalls_of_block {args : MmapArgs} {fuel : ℕ} {pfnStart : UInt64}
    (block : args.GetsBlock pfnStart) (enough : args.pages < fuel) (machine : Machine σ) :
    (fhBridgeMmapCalls fuel args).run answer machine =
      (escapeChecked .mmap
        (fun error => (error, none,
          [.getFreePages MmapArgs.order (some pfnStart.toNat),
            .freePages (args.info pfnStart).freed]))
        (pure (if args.remapRet ≠ 0 then
            (args.remapRet, none,
              [.getFreePages MmapArgs.order (some pfnStart.toNat),
                .remapPfnRange pfnStart.toNat args.size.toNat args.remapRet,
                .freePages (args.info pfnStart).freed])
          else
            (0, some (args.info pfnStart),
              [.getFreePages MmapArgs.order (some pfnStart.toNat),
                .remapPfnRange pfnStart.toNat args.size.toNat args.remapRet])))).run answer
          { machine with page := args.request pfnStart machine.page } := by
  have looped := run_mmapPfnLoop_request answer machine pfnStart enough
  have infoAlloc : ¬(!args.infoAlloc) = true := by simp [block.infoAlloc]
  rw [fhBridgeMmapCalls, if_neg infoAlloc, if_neg (not_le.mpr block.size), block.pfnStart]
  simp only [mmapPage] at looped
  simp only [Prog.run_bind, Prog.run_storeBytes, Prog.run_storeInt, Prog.run_storeField,
    Prog.andThen_done, MmapArgs.pages, looped]

/-- With enough fuel `fh_bridge_mmap` ends in one of the ways of `MmapEnding`. -/
theorem run_fhBridgeMmapCalls {args : MmapArgs} {fuel : ℕ} (enough : args.pages < fuel)
    (machine : Machine σ) :
    ∃ ret info calls final,
      (fhBridgeMmapCalls fuel args).run answer machine = (.done (ret, info, calls), final) ∧
        MmapEnding answer args machine ret info calls final := by
  by_cases noInfo : (!args.infoAlloc) = true
  · refine ⟨_, _, _, _, by rw [fhBridgeMmapCalls, if_pos noInfo, Prog.run_pure],
      .noBlock (fun pfnStart block => ?_) (Or.inl rfl)⟩
    rw [block.infoAlloc] at noInfo
    cases noInfo
  by_cases invalid : args.size ≤ 0
  · exact ⟨_, _, _, _, by rw [fhBridgeMmapCalls, if_neg noInfo, if_pos invalid, Prog.run_pure],
      .noBlock (fun pfnStart block => absurd block.size (not_lt.mpr invalid)) (Or.inl rfl)⟩
  cases pages : args.pfnStart with
  | none =>
      refine ⟨_, _, _, _, by rw [fhBridgeMmapCalls, if_neg noInfo, if_neg invalid, pages,
        Prog.run_pure], .noBlock (fun pfnStart block => ?_) (Or.inr rfl)⟩
      rw [block.pfnStart] at pages
      cases pages
  | some pfnStart =>
      have block : args.GetsBlock pfnStart := ⟨by simpa using noInfo, not_le.mp invalid, pages⟩
      rw [run_fhBridgeMmapCalls_of_block answer block enough]
      by_cases remapped : args.remapRet = 0
      · rw [if_neg (not_not.mpr remapped)]
        rcases run_escapeChecked_cases answer .mmap _ _
          { machine with page := args.request pfnStart machine.page } with
          ⟨accepted, success⟩ | ⟨refused, error, failure⟩
        · exact ⟨_, _, _, _, success, .mapped block ⟨accepted, remapped⟩⟩
        · exact ⟨_, _, _, _, failure,
            .failed block (fun maps => refused maps.accepted) (Or.inl rfl)⟩
      · rw [if_pos remapped]
        have failed : ¬args.Maps answer machine pfnStart := fun maps => remapped maps.remapRet
        rcases run_escapeChecked_cases answer .mmap _ _
          { machine with page := args.request pfnStart machine.page } with
          ⟨-, success⟩ | ⟨-, error, failure⟩
        · exact ⟨_, _, _, _, success, .failed block failed (Or.inr rfl)⟩
        · exact ⟨_, _, _, _, failure, .failed block failed (Or.inl rfl)⟩

end

/-! ## What the host and user space are told -/

/-- A peer that also records the pages that it is given. -/
def asked {σ : Type} (answer : σ → ByteMem → σ × ByteMem) :
    σ × List ByteMem → ByteMem → (σ × List ByteMem) × ByteMem :=
  fun peer page => (((answer peer.1 page).1, peer.2 ++ [page]), (answer peer.1 page).2)

/-- A mapping of `pages` pages is backed by its block: the block is large enough, the host is sent
the frames from its start on, and only its frames are mapped into user space. -/
structure DescribesBlock (pages : ℕ) (block : PageBlock) (requests : List ByteMem)
    (calls : List PageCall) : Prop where
  allocated : .getFreePages block.order (some block.pfn) ∈ calls
  spans : pages ≤ block.pages
  sent : ∀ page ∈ requests, page.get ActionMmapDevice.pfnSize = pages ∧
    ∀ index < pages, page.get (ActionMmapDevice.pfn index) = block.pfn + index
  mapped : ∀ pfn size ret, .remapPfnRange pfn size ret ∈ calls →
    ∀ index < size / pageSize, pfn + index ∈ block.frames

theorem request_get_pfnSize (args : MmapArgs) (pfnStart : UInt64) (base : ByteMem) :
    (args.request pfnStart base).get ActionMmapDevice.pfnSize = args.pages := by
  rw [MmapArgs.request, pfnPage_eq_pfnListPage, get_pfnListPage pfn_disjoint_pfnSize,
    mmapPage_get_pfnSize]

theorem request_get_pfn_zero {args : MmapArgs} (onePage : args.pages = 1) (pfnStart : UInt64)
    (base : ByteMem) :
    (args.request pfnStart base).get (ActionMmapDevice.pfn 0) = pfnStart.toNat := by
  rw [MmapArgs.request, onePage, pfnPage, ByteMem.get_set_same, Nat.zero_mul, Nat.add_zero]
  exact Nat.mod_eq_of_lt pfnStart.toNat_lt

/-- The calls behind the allocation: they map the pages or free them. -/
def MapsOrFrees (args : MmapArgs) (pfnStart : UInt64) (calls : List PageCall) : Prop :=
  ∀ call ∈ calls, call = .remapPfnRange pfnStart.toNat args.size.toNat args.remapRet ∨
    ∃ block, call = .freePages block

theorem describesBlock_iff {args : MmapArgs} {pfnStart : UInt64} {calls : List PageCall}
    (rest : MapsOrFrees args pfnStart calls) (nonce : ℕ) (base : ByteMem) :
    (∃ block, DescribesBlock args.pages block
        [escapePage .mmap nonce (args.request pfnStart base)]
        (.getFreePages MmapArgs.order (some pfnStart.toNat) :: calls)) ↔ args.pages ≤ 1 := by
  constructor
  · rintro ⟨block, described⟩
    rcases List.mem_cons.mp described.allocated with first | later
    · have order : block.order = 0 := (PageCall.getFreePages.inj first).1
      simpa [PageBlock.pages, order] using described.spans
    · rcases rest _ later with remap | ⟨other, frees⟩
      · cases remap
      · cases frees
  · intro few
    refine ⟨⟨pfnStart.toNat, MmapArgs.order⟩, List.mem_cons_self .., by simpa [PageBlock.pages,
      MmapArgs.order] using few, ?_, ?_⟩
    · intro page page_mem
      rw [List.mem_singleton.mp page_mem, get_escapePage (by decide), request_get_pfnSize]
      refine ⟨rfl, ?_⟩
      intro index index_lt
      have onePage : args.pages = 1 := by omega
      have first : index = 0 := by omega
      subst first
      rw [get_escapePage (by decide), request_get_pfn_zero onePage, Nat.add_zero]
    · intro pfn size ret mapped index index_lt
      rcases List.mem_cons.mp mapped with first | later
      · cases first
      · rcases rest _ later with remap | ⟨other, frees⟩
        · obtain ⟨rfl, rfl, -⟩ := PageCall.remapPfnRange.inj remap
          have first : index = 0 := by
            simp only [MmapArgs.pages] at few
            omega
          rw [first]
          exact PageBlock.pfn_mem_frames ⟨pfnStart.toNat, MmapArgs.order⟩
        · cases frees

/-- A mapping that gets as far as the escape is backed by its block only if it is one page. -/
theorem fhBridgeMmap_describesBlock_iff {σ : Type} (answer : σ → ByteMem → σ × ByteMem)
    {args : MmapArgs} {pages : ℕ} (some_page : 1 ≤ pages) (vma : args.size = pages * pageSize)
    (machine : Machine (σ × List ByteMem)) (fresh : machine.peer.2 = []) {fuel : ℕ}
    (enough : pages < fuel) :
    ∃ ret info calls final,
      (fhBridgeMmapCalls fuel args).run (asked answer) machine =
          (.done (ret, info, calls), final) ∧
        (final.peer.2 ≠ [] →
          ((∃ block, DescribesBlock pages block final.peer.2 calls) ↔ pages = 1)) := by
  have pages_eq : args.pages = pages := by
    simp only [MmapArgs.pages, vma, pageSize]
    omega
  subst pages_eq
  rcases run_fhBridgeMmapCalls (asked answer) enough machine with
    ⟨ret, info, calls, final, runs, ending⟩
  refine ⟨ret, info, calls, final, runs, fun escapes => ?_⟩
  have requests (pfnStart : UInt64) :
      ((machine.requesting args pfnStart).answered (asked answer)).peer.2 =
        [escapePage .mmap (machine.counter + 1) (args.request pfnStart machine.page)] := by
    simp [Machine.requesting, Machine.answered, escaping, asked, fresh]
  have one : args.pages ≤ 1 ↔ args.pages = 1 := by omega
  cases ending with
  | noBlock => exact absurd fresh escapes
  | failed block failed remaps_eq =>
      rw [requests, ← one]
      apply describesBlock_iff
      intro call call_mem
      rcases List.mem_append.mp call_mem with remap | free
      · rcases remaps_eq with rfl | rfl
        · cases remap
        · exact Or.inl (List.mem_singleton.mp remap)
      · exact Or.inr ⟨_, List.mem_singleton.mp free⟩
  | mapped block maps =>
      rw [requests, ← one]
      apply describesBlock_iff
      intro call call_mem
      exact Or.inl (List.mem_singleton.mp call_mem)

/-- A mapping of the given number of pages, for which the allocator returns page frame 8. -/
def MmapArgs.ofPages (pages : ℕ) : MmapArgs where
  fd := 3
  vmStart := 0
  vmEnd := UInt64.ofNat (pages * pageSize)
  vmPgoff := 0
  vmFlags := 0
  vmPageProt := 0
  infoAlloc := true
  pfnStart := some 8
  remapRet := 0

/-- A machine whose host is not there. -/
def Machine.alone : Machine Unit := ⟨ByteMem.zero, false, 0, ()⟩

def noAnswer : Unit → ByteMem → Unit × ByteMem := fun peer page => (peer, page)

theorem fhBridgeMmap_describesBlock_onePage :
    ∃ ret info calls final,
      (fhBridgeMmapCalls 2 (.ofPages 1)).run (asked noAnswer)
          ⟨ByteMem.zero, false, 0, ((), [])⟩ = (.done (ret, info, calls), final) ∧
        final.peer.2 ≠ [] ∧ ∃ block, DescribesBlock 1 block final.peer.2 calls := by
  have escapes : ((fhBridgeMmapCalls 2 (.ofPages 1)).run (asked noAnswer)
      ⟨ByteMem.zero, false, 0, ((), [])⟩).2.peer.2 ≠ [] := List.cons_ne_nil _ _
  have vma : (MmapArgs.ofPages 1).size = (1 : ℕ) * pageSize := by decide
  have enough : 1 < 2 := by decide
  rcases fhBridgeMmap_describesBlock_iff noAnswer le_rfl vma
    ⟨ByteMem.zero, false, 0, ((), [])⟩ rfl enough with ⟨ret, info, calls, final, runs, describes⟩
  rw [runs] at escapes
  exact ⟨ret, info, calls, final, runs, escapes, (describes escapes).2 rfl⟩

/-- A mapping of two pages gets a block of one page. -/
theorem mmap_twoPages_not_described :
    ¬∀ (σ : Type) (answer : σ → ByteMem → σ × ByteMem) (args : MmapArgs) (pages : ℕ),
      1 ≤ pages → args.size = pages * pageSize →
      ∀ (machine : Machine (σ × List ByteMem)), machine.peer.2 = [] →
      ∀ (fuel : ℕ) (ret : ℤ) (info : Option MmapInfo) (calls : List PageCall)
        (final : Machine (σ × List ByteMem)),
        (fhBridgeMmapCalls fuel args).run (asked answer) machine =
            (.done (ret, info, calls), final) → final.peer.2 ≠ [] →
          ∃ block, DescribesBlock pages block final.peer.2 calls := by
  intro claim
  obtain ⟨calls, final, runs, escapes, calls_eq⟩ : ∃ calls final,
      (fhBridgeMmapCalls 3 (.ofPages 2)).run (asked noAnswer)
          ⟨ByteMem.zero, false, 0, ((), [])⟩ = (.done (-6, none, calls), final) ∧
        final.peer.2 ≠ [] ∧ calls = [.getFreePages 0 (some 8), .freePages ⟨8, 2⟩] :=
    ⟨_, _, rfl, List.cons_ne_nil _ _, rfl⟩
  rcases claim Unit noAnswer (.ofPages 2) 2 (by decide) (by decide) _ rfl _ _ _ _ _ runs escapes
    with ⟨block, described⟩
  have allocated := described.allocated
  have spans := described.spans
  simp only [calls_eq, List.mem_cons, PageCall.getFreePages.injEq, reduceCtorEq, List.not_mem_nil,
    or_false] at allocated
  simp [PageBlock.pages, allocated.1] at spans

/-! ## Freed pages -/

end Acai
