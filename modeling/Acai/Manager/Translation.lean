import Acai.Manager.Comm

/-!
# The translation of chunk records

`do_dma` goes over the records of the transfer buffer and replaces, in place, the
page frame number of each by the address in the process of the guest. The loop
ends at the first number without an address. This file says when it gets through
(`translateChunks_ne_none_iff`) and what the records are afterwards
(`translateChunks_eq`).
-/

namespace Acai

theorem chunkAddr_disjoint {left right : ℕ} (distinct : left ≠ right) :
    (chunkAddr left).Disjoint (chunkAddr right) := by
  simp only [Field.Disjoint, chunkAddr, PageChunk.size]
  omega

/-- The translation succeeds when every record has an address; a record that is already
translated does not influence the ones behind it. -/
theorem translateChunks_ne_none_iff (ctx : CtxStruct) (count index : ℕ) (chunks : ByteMem) :
    translateChunks ctx count index chunks ≠ none ↔
      ∀ step < count, getAddrMapVaddrVerify ctx (chunks.get (chunkAddr (index + step))) ≠ 0 := by
  induction count generalizing index chunks with
  | zero => simp [translateChunks]
  | succ count ih =>
      simp only [translateChunks]
      split
      · rename_i unmapped
        simp only [ne_eq, not_true_eq_false, false_iff, not_forall, not_not]
        exact ⟨0, by omega, by simpa using unmapped⟩
      · rename_i mapped
        rw [ih]
        constructor
        · intro rest step step_lt
          rcases step with _ | step
          · simpa using mapped
          · have later := rest step (by omega)
            rw [ByteMem.get_set_of_disjoint (chunkAddr_disjoint (by omega))] at later
            rwa [show index + (step + 1) = index + 1 + step by omega]
        · intro all step step_lt
          rw [ByteMem.get_set_of_disjoint (chunkAddr_disjoint (by omega))]
          have here := all (step + 1) (by omega)
          rwa [show index + (step + 1) = index + 1 + step by omega] at here

def PageChunk.withAddr (chunk : PageChunk) (addr : ℕ) : PageChunk :=
  ⟨addr, chunk.offset, chunk.nbytes⟩

/-- A record with its page frame number replaced by the address in the guest's process. -/
def translated (ctx : CtxStruct) (chunk : PageChunk) : PageChunk :=
  chunk.withAddr (getAddrMapVaddrVerify ctx chunk.addr).toNat

theorem ofMem_set_chunkAddr (chunks : ByteMem) (index other : ℕ) (vaddr : UInt64) :
    PageChunk.ofMem (chunks.set (chunkAddr index) vaddr.toNat) (PageChunk.size * other) =
      if other = index then
        (PageChunk.ofMem chunks (PageChunk.size * other)).withAddr vaddr.toNat
      else PageChunk.ofMem chunks (PageChunk.size * other) := by
  have offset : (chunkAddr index).Disjoint ⟨PageChunk.size * other + 8, 8⟩ := by
    simp only [Field.Disjoint, chunkAddr, PageChunk.size]
    omega
  have nbytes : (chunkAddr index).Disjoint ⟨PageChunk.size * other + 16, 8⟩ := by
    simp only [Field.Disjoint, chunkAddr, PageChunk.size]
    omega
  simp only [PageChunk.ofMem, ByteMem.get_set_of_disjoint offset,
    ByteMem.get_set_of_disjoint nbytes, PageChunk.withAddr]
  by_cases here : other = index
  · subst here
    have stored := ByteMem.get_set_same chunks (chunkAddr other) vaddr.toNat
    have width : 256 ^ (chunkAddr other).width = 2 ^ 64 := by norm_num [chunkAddr]
    rw [width, Nat.mod_eq_of_lt vaddr.toNat_lt] at stored
    simp only [chunkAddr, ↓reduceIte] at stored ⊢
    rw [stored]
  · rw [if_neg here]
    have addr : (chunkAddr index).Disjoint ⟨PageChunk.size * other, 8⟩ := by
      simp only [Field.Disjoint, chunkAddr, PageChunk.size]
      omega
    rw [ByteMem.get_set_of_disjoint addr]

/-- The loop translates the records from `index` on, as long as each of them has an address. -/
theorem translateChunks_eq (ctx : CtxStruct) (count index : ℕ) (chunks : ByteMem)
    (mapped : ∀ step < count, getAddrMapVaddrVerify ctx
      (PageChunk.ofMem chunks (PageChunk.size * (index + step))).addr ≠ 0) :
    ∃ chunks', translateChunks ctx count index chunks = some chunks' ∧
      ∀ other, PageChunk.ofMem chunks' (PageChunk.size * other) =
        if index ≤ other ∧ other < index + count then
          translated ctx (PageChunk.ofMem chunks (PageChunk.size * other))
        else PageChunk.ofMem chunks (PageChunk.size * other) := by
  induction count generalizing index chunks with
  | zero =>
      refine ⟨chunks, rfl, ?_⟩
      intro other
      rw [if_neg (by omega)]
  | succ count ih =>
      have first := mapped 0 (by omega)
      rw [Nat.add_zero] at first
      have stored := fun other => ofMem_set_chunkAddr chunks index other
        (getAddrMapVaddrVerify ctx (chunks.get (chunkAddr index)))
      have later : ∀ step < count, getAddrMapVaddrVerify ctx
          (PageChunk.ofMem (chunks.set (chunkAddr index)
            (getAddrMapVaddrVerify ctx (chunks.get (chunkAddr index))).toNat)
              (PageChunk.size * (index + 1 + step))).addr ≠ 0 := by
        intro step step_lt
        rw [stored, if_neg (by omega), Nat.add_assoc]
        exact mapped (1 + step) (by omega)
      rcases ih (index + 1) _ later with ⟨chunks', translatedRest, records⟩
      refine ⟨chunks', ?_, ?_⟩
      · rw [translateChunks]
        exact (if_neg first).trans translatedRest
      · intro other
        rw [records, stored]
        by_cases here : other = index
        · subst here
          rw [if_neg (by omega), if_pos rfl, if_pos (by omega)]
          rfl
        · simp only [here, ↓reduceIte]
          by_cases inside : index + 1 ≤ other ∧ other < index + 1 + count
          · rw [if_pos inside, if_pos (by omega)]
          · rw [if_neg inside, if_neg (by omega)]

/-- The records behind a loop that got through. -/
theorem readChunks_of_translateChunks {ctx : CtxStruct} {count : ℕ} {mem chunks : ByteMem}
    (translates : translateChunks ctx count 0 mem = some chunks) :
    readChunks chunks count = (List.range count).map fun index =>
      translated ctx (PageChunk.ofMem mem (PageChunk.size * index)) := by
  have mapped := (translateChunks_ne_none_iff ctx count 0 mem).mp (by simp [translates])
  rcases translateChunks_eq ctx count 0 mem mapped with ⟨chunks', done, records⟩
  obtain rfl : chunks = chunks' := Option.some.inj (translates.symm.trans done)
  rw [readChunks]
  apply List.map_congr_left
  intro index index_mem
  rw [records, if_pos ⟨by omega, by simpa using index_mem⟩]

theorem readChunks_translateChunks {ctx : CtxStruct} {chunks : List PageChunk} {mem : ByteMem}
    (received : readChunks mem chunks.length = chunks)
    (mapped : ∀ chunk ∈ chunks, getAddrMapVaddrVerify ctx chunk.addr ≠ 0) :
    ∃ mem', translateChunks ctx chunks.length 0 mem = some mem' ∧
      readChunks mem' chunks.length = chunks.map (translated ctx) := by
  have allMapped : ∀ step < chunks.length, getAddrMapVaddrVerify ctx
      (mem.get (chunkAddr (0 + step))) ≠ 0 := by
    intro step step_lt
    have inList : PageChunk.ofMem mem (PageChunk.size * step) ∈ readChunks mem chunks.length :=
      List.mem_map.mpr ⟨step, List.mem_range.mpr step_lt, rfl⟩
    rw [received] at inList
    have here := mapped _ inList
    rwa [Nat.zero_add]
  rcases Option.ne_none_iff_exists'.mp
    ((translateChunks_ne_none_iff ctx chunks.length 0 mem).mpr allMapped) with ⟨mem', translates⟩
  refine ⟨mem', translates, ?_⟩
  conv_rhs => rw [← received, readChunks, List.map_map]
  rw [readChunks_of_translateChunks translates]
  rfl

end Acai
