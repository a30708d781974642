import Acai.Driver.RemoteTransfer

/-!
# The DMA request of the manager

`fh_handle_dma` copies the request of the manager and then its list of records, and
hands both to `char_sgdma_read_write_remote`. The two results of `copy_from_user` are
the numbers of bytes that could not be copied. They are never negative, up to the
narrowing to an `int`, so that the checks behind them do not catch a failed copy; the
bytes that could not be copied are zero.

The records are read from the allocated block by a counter of 32 bits, while the size
of the block is computed with 64 bits. Behind its end, the block goes on with whatever
the heap holds there.
-/

namespace Acai

/-! ## The layout of the request (`struct fh_host_ioctl_dma`) -/

namespace IoctlDma

def size : ℕ := 56

def pid : Field := ⟨0, 4⟩

def phyAddr : Field := ⟨8, 8⟩

def doWrite : Field := ⟨16, 4⟩

def doAperture : Field := ⟨20, 4⟩

def userBuf : Field := ⟨24, 8⟩

def len : Field := ⟨32, 8⟩

def chunksNr : Field := ⟨40, 8⟩

def chunks : Field := ⟨48, 8⟩

end IoctlDma

/-- `copy_from_user` to the start of `dest`, when the last `left` bytes cannot be copied. -/
def copyFromUser (dest user : ByteMem) (source count left : ℕ) : ByteMem :=
  dest.writeBytes 0 (user.readBytes source (count - left) ++ List.replicate left 0)

theorem copyFromUser_apply {dest user : ByteMem} {source count left index : ℕ}
    (partly : left ≤ count) (inside : index < count) :
    copyFromUser dest user source count left index =
      if index < count - left then user (source + index) else 0 := by
  have length : (user.readBytes source (count - left) ++ List.replicate left (0 : UInt8)).length =
      count := by
    rw [List.length_append, ByteMem.length_readBytes, List.length_replicate,
      Nat.sub_add_cancel partly]
  have stored := @ByteMem.writeBytes_apply_add dest 0 index
    (user.readBytes source (count - left) ++ List.replicate left 0) (by omega)
  rw [Nat.zero_add] at stored
  rw [copyFromUser, stored]
  by_cases copied : index < count - left
  · rw [if_pos copied, List.getElem_append_left (by simpa using copied),
      ByteMem.getElem_readBytes]
  · rw [if_neg copied, List.getElem_append_right (by simpa using copied),
      List.getElem_replicate]

/-! ## The handler -/

/-- A call of `fh_handle_dma`, and what the kernel and the engine do in it. -/
structure HandleCall where
  xcdev : Option XdmaCdev
  /-- The memory of the calling process. -/
  user : ByteMem
  arg : ℕ
  /-- The bytes of the request that cannot be copied. -/
  copyRequest : Fin (IoctlDma.size + 1)
  /-- The block that is allocated, with what the heap holds in it and behind it. -/
  kmalloc : ℕ → Option ByteMem
  /-- The bytes of the list that cannot be copied. -/
  copyChunks : (count : ℕ) → Fin (count + 1)
  kernel : RemoteKernel
  xferSubmit : ℤ

namespace HandleCall

variable (call : HandleCall)

def usr : ByteMem :=
  copyFromUser .zero call.user call.arg IoctlDma.size call.copyRequest

def chunksNr : ℕ := call.usr.get IoctlDma.chunksNr

def pageChunksSize : ℕ := u64 (call.chunksNr * PageChunk.size)

def left : ℕ := call.copyChunks call.pageChunksSize

/-- The allocated block after the second copy. -/
def pageChunks (block : ByteMem) : ByteMem :=
  copyFromUser block call.user (call.usr.get IoctlDma.chunks) call.pageChunksSize call.left

/-- The request that is handed on, with the records that are read from the block. -/
def dma (block : ByteMem) : FhHostIoctlDma where
  pid := Int32.ofInt (call.usr.getInt IoctlDma.pid)
  phyAddr := call.usr.get IoctlDma.phyAddr
  doWrite := call.usr.getInt IoctlDma.doWrite
  doAperture := call.usr.getInt IoctlDma.doAperture
  userBuf := call.usr.get IoctlDma.userBuf
  len := call.usr.get IoctlDma.len
  chunksNr := call.chunksNr
  chunks := readChunks (call.pageChunks block) (u32 call.chunksNr)

def remoteArgs (block : ByteMem) : RemoteArgs where
  xcdev := call.xcdev
  dma := call.dma block
  count := UInt64.ofNat (call.usr.get IoctlDma.len)
  remoteAddr := UInt64.ofNat (call.usr.get IoctlDma.phyAddr)
  write := call.usr.getInt IoctlDma.doWrite ≠ 0
  kernel := call.kernel
  xferSubmit := call.xferSubmit

end HandleCall

structure HandleOutcome where
  ret : ℤ
  /-- The request that was handed to `char_sgdma_read_write_remote`. -/
  request : Option FhHostIoctlDma
  /-- What was handed to `xdma_xfer_submit`. -/
  submitted : Option XdmaIoCb

/-- `fh_handle_dma`; its loop over the records has no effect. -/
def fhHandleDma (call : HandleCall) : HandleOutcome :=
  if i32 call.copyRequest.val < 0 then ⟨i32 call.copyRequest.val, none, none⟩
  else
    match call.kmalloc call.pageChunksSize with
    | none => ⟨-Errno.ENOMEM.code, none, none⟩
    | some block =>
        if i32 call.left < 0 then ⟨i32 call.left, none, none⟩
        else
          let outcome := charSgdmaReadWriteRemote (call.remoteArgs block)
          ⟨i32 outcome.ret, some (call.dma block), outcome.submitted⟩

/-! ## What the handler acts on -/

/-- The record at `index` of the list that the caller passed. -/
def HandleCall.callerChunk (call : HandleCall) (index : ℕ) : PageChunk :=
  PageChunk.ofMem call.user
    (call.user.get ⟨call.arg + IoctlDma.chunks.offset, 8⟩ + PageChunk.size * index)

/-- The records that are read lie in the allocated block and are the caller's. -/
def HandleCall.ReadsOwn (call : HandleCall) (dma : FhHostIoctlDma) : Prop :=
  ∀ index < u32 dma.chunksNr,
    PageChunk.size * (index + 1) ≤ u64 (dma.chunksNr * PageChunk.size) ∧
      dma.chunks[index]? = some (call.callerChunk index)

/-- The handler fails without a transfer, or it acts on the records of the caller. -/
def HandleCall.ActsOnRequest (call : HandleCall) : Prop :=
  (fhHandleDma call).ret < 0 ∧ (fhHandleDma call).submitted = none ∨
    ∃ dma, (fhHandleDma call).request = some dma ∧ call.ReadsOwn dma

/-- The block is smaller than the records that are read from it: the carry out of the upper half of
`chunks_nr * 24` takes the records below away. -/
def ChunksOverflow (chunksNr : ℕ) : Prop :=
  2 ^ 64 ≤ PageChunk.size * (chunksNr / 2 ^ 32) % 2 ^ 32 * 2 ^ 32 +
    PageChunk.size * (chunksNr % 2 ^ 32)

theorem chunks_inBlock_iff (chunksNr : ℕ) :
    PageChunk.size * u32 chunksNr ≤ u64 (chunksNr * PageChunk.size) ↔
      ¬ChunksOverflow chunksNr := by
  simp only [ChunksOverflow, u32, u64, PageChunk.size]
  have halves : chunksNr * 24 = 2 ^ 64 * (24 * (chunksNr / 2 ^ 32) / 2 ^ 32) +
      (24 * (chunksNr / 2 ^ 32) % 2 ^ 32 * 2 ^ 32 + 24 * (chunksNr % 2 ^ 32)) := by
    omega
  have upper : 24 * (chunksNr / 2 ^ 32) % 2 ^ 32 < 2 ^ 32 := Nat.mod_lt _ (by decide)
  have lower : chunksNr % 2 ^ 32 < 2 ^ 32 := Nat.mod_lt _ (by decide)
  rw [halves, Nat.mul_add_mod]
  clear halves
  generalize 24 * (chunksNr / 2 ^ 32) % 2 ^ 32 = high at *
  generalize chunksNr % 2 ^ 32 = low at *
  rcases lt_or_ge (high * 2 ^ 32 + 24 * low) (2 ^ 64) with below | above
  · rw [Nat.mod_eq_of_lt below]
    omega
  · rw [Nat.mod_eq_sub_mod above, Nat.mod_eq_of_lt (by omega)]
    omega

/-- A byte of the list as it should be: it was copied from where the caller has it, or it could not
be copied and is zero at the caller. -/
def HandleCall.Arrives (call : HandleCall) (index : ℕ) : Prop :=
  if index < call.pageChunksSize - call.left then
    call.user (call.usr.get IoctlDma.chunks + index) =
      call.user (call.user.get ⟨call.arg + IoctlDma.chunks.offset, 8⟩ + index)
  else call.user (call.user.get ⟨call.arg + IoctlDma.chunks.offset, 8⟩ + index) = 0

/-- The transfer is refused, or all records fit into the block and all their bytes arrive. -/
inductive HandleCall.KeepsRequest (call : HandleCall) : Prop where
  | refused (stops : ∀ block, call.kmalloc call.pageChunksSize = some block → 0 ≤ i32 call.left →
      ¬(call.remoteArgs block).Submits)
  | arrives (fits : ¬ChunksOverflow call.chunksNr)
      (bytes : ∀ index < PageChunk.size * u32 call.chunksNr, call.Arrives index)

section Records

variable {call : HandleCall}

theorem HandleCall.left_le : call.left ≤ call.pageChunksSize :=
  Nat.lt_succ_iff.mp (call.copyChunks call.pageChunksSize).isLt

theorem pageChunks_eq_iff {block : ByteMem} {index : ℕ} (inside : index < call.pageChunksSize) :
    call.pageChunks block index =
        call.user (call.user.get ⟨call.arg + IoctlDma.chunks.offset, 8⟩ + index) ↔
      call.Arrives index := by
  rw [HandleCall.pageChunks, copyFromUser_apply HandleCall.left_le inside, HandleCall.Arrives]
  split
  · rfl
  · exact eq_comm

theorem dma_chunks_getElem? {block : ByteMem} {index : ℕ} (counted : index < u32 call.chunksNr) :
    (call.dma block).chunks[index]? =
      some (PageChunk.ofMem (call.pageChunks block) (PageChunk.size * index)) := by
  rw [HandleCall.dma, readChunks, List.getElem?_map, List.getElem?_range counted]
  rfl

/-- The records are read from the block, byte by byte. -/
theorem readsOwn_iff {block : ByteMem} :
    call.ReadsOwn (call.dma block) ↔ ¬ChunksOverflow call.chunksNr ∧
      ∀ index < PageChunk.size * u32 call.chunksNr, call.Arrives index := by
  rw [← chunks_inBlock_iff]
  have each : ∀ index < u32 call.chunksNr,
      PageChunk.size * (index + 1) ≤ call.pageChunksSize →
        ((call.dma block).chunks[index]? = some (call.callerChunk index) ↔
          ∀ byte < PageChunk.size, call.Arrives (PageChunk.size * index + byte)) := by
    intro index counted inside
    rw [dma_chunks_getElem? counted, Option.some.injEq, HandleCall.callerChunk,
      PageChunk.ofMem_eq_ofMem_iff]
    refine forall₂_congr fun byte byte_lt => ?_
    rw [Nat.mul_succ] at inside
    rw [Nat.add_assoc]
    exact pageChunks_eq_iff (by omega)
  constructor
  · intro own
    have inside : PageChunk.size * u32 call.chunksNr ≤ call.pageChunksSize := by
      rcases Nat.eq_zero_or_pos (u32 call.chunksNr) with none | some
      · simp [none]
      · have last := (own (u32 call.chunksNr - 1) (Nat.sub_lt some Nat.one_pos)).1
        rwa [Nat.sub_add_cancel some] at last
    refine ⟨inside, fun index index_lt => ?_⟩
    have counted : index / PageChunk.size < u32 call.chunksNr := Nat.div_lt_of_lt_mul index_lt
    have bytes := (each _ counted (own _ counted).1).mp (own _ counted).2
      (index % PageChunk.size) (Nat.mod_lt _ (by decide))
    rwa [Nat.div_add_mod] at bytes
  · rintro ⟨inside, bytes⟩ index counted
    have fits : PageChunk.size * (index + 1) ≤ call.pageChunksSize :=
      (Nat.mul_le_mul_left _ counted).trans inside
    refine ⟨fits, (each index counted fits).mpr fun byte byte_lt => bytes _ ?_⟩
    have record : PageChunk.size * (index + 1) ≤ PageChunk.size * u32 call.chunksNr :=
      Nat.mul_le_mul_left _ counted
    rw [Nat.mul_succ] at record
    omega

theorem i32_of_range {value : ℤ} (lower : -2 ^ 31 ≤ value) (upper : value < 2 ^ 31) :
    i32 value = value := by
  rw [i32]
  exact Int.bmod_eq_of_le (by omega) (by omega)

/-- The first copy is never taken for a failure. -/
theorem not_copyRequest_neg : ¬i32 call.copyRequest.val < 0 := by
  have bound : call.copyRequest.val < 57 := call.copyRequest.isLt
  rw [i32_of_range (by omega) (by omega)]
  omega

theorem fhHandleDma_handed {block : ByteMem}
    (allocated : call.kmalloc call.pageChunksSize = some block) (copied : 0 ≤ i32 call.left) :
    fhHandleDma call =
      ⟨i32 (charSgdmaReadWriteRemote (call.remoteArgs block)).ret, some (call.dma block),
        (charSgdmaReadWriteRemote (call.remoteArgs block)).submitted⟩ := by
  simp only [fhHandleDma, not_copyRequest_neg, allocated, not_lt.mpr copied, ↓reduceIte]

theorem fhHandleDma_refused
    (stops : ∀ block, call.kmalloc call.pageChunksSize = some block → 0 ≤ i32 call.left →
      ¬(call.remoteArgs block).Submits) :
    (fhHandleDma call).ret < 0 ∧ (fhHandleDma call).submitted = none := by
  rcases lt_or_ge (i32 call.left) 0 with failed | copied
  · simp only [fhHandleDma, not_copyRequest_neg, ↓reduceIte]
    split
    · exact ⟨by decide, rfl⟩
    · simp only [failed, ↓reduceIte, and_self]
  cases allocated : call.kmalloc call.pageChunksSize with
  | none =>
      simp only [fhHandleDma, not_copyRequest_neg, allocated, ↓reduceIte]
      exact ⟨by decide, trivial⟩
  | some block =>
      rcases charSgdmaReadWriteRemote_refused (stops block allocated copied) with
        ⟨submitted, lower, negative⟩
      rw [fhHandleDma_handed allocated copied]
      dsimp only
      rw [i32_of_range lower (by omega)]
      exact ⟨negative, submitted⟩

end Records

/--
`fh_handle_dma` fails without a transfer or acts on the records of its caller if and only
if the transfer is refused, or the records lie in the block in spite of the two widths of
`chunks_nr`, and the copies deliver every byte of them.
-/
theorem fhHandleDma_actsOnRequest_iff (call : HandleCall) :
    call.ActsOnRequest ↔ call.KeepsRequest := by
  by_cases handed : ∃ block, call.kmalloc call.pageChunksSize = some block ∧ 0 ≤ i32 call.left ∧
      (call.remoteArgs block).Submits
  · rcases handed with ⟨block, allocated, copied, submits⟩
    have outcome := fhHandleDma_handed allocated copied
    have handedOn : (fhHandleDma call).request = some (call.dma block) := by
      rw [outcome]
    constructor
    · rintro (⟨-, none⟩ | ⟨dma, request, own⟩)
      · rw [outcome] at none
        exact absurd none (charSgdmaReadWriteRemote_of_submits submits)
      · have same : call.dma block = dma := Option.some.inj (handedOn.symm.trans request)
        rw [← same] at own
        rcases readsOwn_iff.mp own with ⟨fits, bytes⟩
        exact .arrives fits bytes
    · rintro (stops | ⟨fits, bytes⟩)
      · exact absurd submits (stops block allocated copied)
      · exact Or.inr ⟨call.dma block, handedOn, readsOwn_iff.mpr ⟨fits, bytes⟩⟩
  · have stops : ∀ block, call.kmalloc call.pageChunksSize = some block → 0 ≤ i32 call.left →
        ¬(call.remoteArgs block).Submits := by
      intro block allocated copied submits
      exact handed ⟨block, allocated, copied, submits⟩
    exact iff_of_true (Or.inl (fhHandleDma_refused stops)) (.refused stops)

/-- A write of 16 bytes with two records, of which the second one cannot be copied. -/
def HandleCall.secondLost : HandleCall where
  xcdev := some .writer
  user :=
    ((((ByteMem.zero.writeBytes 64
      (PageChunk.toBytes ⟨0x8000, 0, 16⟩ ++ PageChunk.toBytes ⟨0x9000, 0, 16⟩)).set
        IoctlDma.doWrite 1).set IoctlDma.len 16).set IoctlDma.chunksNr 2).set IoctlDma.chunks 64
  arg := 0
  copyRequest := 0
  kmalloc := fun _ => some .zero
  copyChunks := fun count => ⟨min 24 count, by omega⟩
  kernel :=
    { tableAlloc := true
      pagesAlloc := true
      getMm := fun _ => true
      getUserPagesRemote := fun index _ => .pinned (Page.ofPfn (index + 8)) }
  xferSubmit := 16

/-- A transfer is submitted with a record that is not the caller's. -/
theorem fhHandleDma_submits_uncopied : ¬∀ call : HandleCall, call.ActsOnRequest := by
  intro claim
  have submitted : (fhHandleDma .secondLost).submitted ≠ none := by
    decide +kernel
  have request : (fhHandleDma .secondLost).request = some (HandleCall.secondLost.dma .zero) :=
    congrArg HandleOutcome.request (fhHandleDma_handed rfl (by decide +kernel))
  rcases claim .secondLost with ⟨-, none⟩ | ⟨dma, handedOn, own⟩
  · exact submitted none
  · have same : HandleCall.secondLost.dma .zero = dma :=
      Option.some.inj (request.symm.trans handedOn)
    rw [← same] at own
    have record := (own 1 (by decide +kernel)).2
    exact absurd record (by decide +kernel)

end Acai
