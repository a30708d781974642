import Acai.Hook.Allocator
import Mathlib.Algebra.Order.Group.Multiset
import Mathlib.Algebra.BigOperators.Group.List.Basic

/-!
# Ownership of the hook's blocks

This file shows which pointers the hook passes on to the C library. A caller only
hands back blocks that it was given and still owns, and every block is of one of
the three allocators. `free` recognises the blocks of the bootstrap buffer and of
the premapped region by their address; `realloc` asks for neither and passes
every pointer on. A block at the very end of the bootstrap buffer, which is what
the buffer hands out when it is full and asked for nothing, is outside of the
range that `free` looks at.

As long as no such block is handed to `realloc` or to `free`, the hook passes only
pointers of the C library, over every sequence of calls and through every nesting
of them.
-/

namespace Acai

/-! ## What is promised and what is asked -/

section Promises

variable (buffer : ℕ)

/-- The premapped region, once the hook has set its start. -/
def HookState.InMap (state : HookState) (ptr : ℕ) : Prop :=
  ∃ start, state.mapStart = some start ∧ start ≤ ptr ∧ ptr < start + mapSize

/-- The bootstrap buffer, with the address behind its last byte. -/
def InBuffer (ptr : ℕ) : Prop := buffer ≤ ptr ∧ ptr ≤ buffer + bufferSize

/-- A pointer into the bootstrap buffer or the premapped region. -/
def InArea (state : HookState) (ptr : ℕ) : Prop :=
  mmIsAddress buffer ptr = true ∨ state.InMap ptr

/-- A caller hands back a live block or the null pointer. -/
def PassesLive (state : HookState) : HookMove → Prop
  | .call request _ _ => ∀ block ∈ request.block, block ∈ state.live
  | .resume _ _ => True

/-- What `malloc` and `mmap` promise of a step: a new block is not live, and neither it nor the new
region overlaps with what is there already. -/
structure LibcSound (state after : HookState) : Prop where
  fresh : Ledger.Fresh after.heap
  outside : ∀ ptr, .acquire ptr ∈ after.heap.drop state.heap.length →
    ptr ≠ 0 ∧ ¬InArea buffer state ptr
  mapped : ∀ ptr ∈ Ledger.live state.heap, after.InMap ptr → state.InMap ptr

/-- No block of the two areas is reallocated, and none at the end of the buffer is freed. -/
def AvoidsAreas (state : HookState) : HookMove → Prop
  | .call (.realloc old _) _ _ => old.ptr = 0 ∨ ¬InBuffer buffer old.ptr ∧ ¬state.InMap old.ptr
  | .call (.free block) _ _ => block.ptr ≠ buffer + bufferSize
  | _ => True

/-- The new block holds what the old one held. -/
def Reallocated.HoldsOld (call : Reallocated) : Prop :=
  ∃ ptr, call.ret = some ptr ∧
    call.after.readBytes ptr (min call.old.size call.size) =
      call.before.readBytes call.old.ptr (min call.old.size call.size)

/-- A step passes only pointers of the C library to `real_free` and `real_realloc`, none of them
into one of the areas, and a reallocated block of an area keeps its contents. -/
structure PassesOwn (state after : HookState) : Prop where
  owned : ∀ ptr, (.release ptr ∈ after.heap.drop state.heap.length ∨
    .use ptr ∈ after.heap.drop state.heap.length) →
    ptr ∈ Ledger.live state.heap ∧ ¬InArea buffer state ptr
  contents : ∀ call ∈ after.reallocs.drop state.reallocs.length, call.old.ptr ≠ 0 →
    InArea buffer state call.old.ptr → call.HoldsOld

end Promises

/-! ## The invariant -/

section Invariant

variable (buffer : ℕ)

/-- What a request in flight must look like for the hook to pass it on safely. -/
def RequestOk (state : HookState) : HookRequest → Prop
  | .malloc _ | .calloc _ _ => True
  | .realloc old _ => old.ptr = 0 ∨ ¬InBuffer buffer old.ptr ∧ ¬state.InMap old.ptr
  | .free block => block.ptr = 0 ∨ ¬InBuffer buffer block.ptr

def FrameOk (state : HookState) : HookFrame → Prop
  | .resolve request | .hereNumber request | .mmapAnnon request => RequestOk buffer state request
  | .lockPages request | .statFile request =>
      RequestOk buffer state request ∧ state.mapStart ≠ none
  | .tracePage block => state.InMap block.ptr
  | .here | .exit => True

def HookRequest.pointers (request : HookRequest) : Multiset ℕ :=
  (request.block.map Block.ptr).elim 0 fun ptr => {ptr}

def HookFrame.pointers (frame : HookFrame) : Multiset ℕ :=
  (frame.block.map Block.ptr).elim 0 fun ptr => {ptr}

def HookFrame.isMmapAnnon : HookFrame → Bool
  | mmapAnnon _ => true
  | _ => false

/-- The pointers that are with the callers or in flight on the stack. -/
def HookState.pointers (state : HookState) : Multiset ℕ :=
  Multiset.ofList (state.live.map Block.ptr) + (state.stack.map HookFrame.pointers).sum

/-- Every pointer that is out is of one of the three allocators, and one of the C library is out
only once. `hand` are the pointers of the request that is being served. -/
structure Owned (state : HookState) (hand : Multiset ℕ) : Prop where
  used : state.bufferUsed ≤ bufferSize
  region : ∀ start, state.mapStart = some start → start ≤ state.map
  locked : state.isDoInit = true → state.mapStart = none → state.locked = true
  mapsOnce : state.stack.countP HookFrame.isMmapAnnon + (if state.mapStart.isSome then 1 else 0) ≤
    if state.isDoInit then 1 else 0
  apart : ∀ ptr ∈ Ledger.live state.heap, ptr ≠ 0 ∧ ¬InArea buffer state ptr
  held : ∀ ptr ∈ state.pointers + hand,
    InBuffer buffer ptr ∨ state.InMap ptr ∨ ptr ∈ Ledger.live state.heap
  once : ∀ ptr ∈ Ledger.live state.heap, ¬InBuffer buffer ptr →
    (state.pointers + hand).count ptr ≤ 1
  frames : ∀ frame ∈ state.stack, FrameOk buffer state frame

variable {buffer} {state : HookState} {hand : Multiset ℕ}

theorem pointers_push (frame : HookFrame) :
    (state.push frame).pointers = state.pointers + frame.pointers := by
  simp only [HookState.pointers, HookState.push, List.map_cons, List.sum_cons]
  rw [add_assoc, add_comm frame.pointers]

theorem pointers_give (block : Block) :
    (state.give block).pointers = state.pointers + {block.ptr} := by
  simp only [HookState.pointers, HookState.give, List.map_cons, ← Multiset.cons_coe,
    ← Multiset.singleton_add]
  rw [add_assoc, add_comm]

/-- A pointer may be dropped at any time: its block is lost. -/
theorem Owned.drop (owned : Owned buffer state hand) {less : Multiset ℕ} (le : less ≤ hand) :
    Owned buffer state less where
  used := owned.used
  region := owned.region
  locked := owned.locked
  mapsOnce := owned.mapsOnce
  apart := owned.apart
  held := fun ptr member =>
    owned.held ptr (Multiset.mem_of_le (add_le_add_right le state.pointers) member)
  once := fun ptr isLive outside =>
    (Multiset.count_le_of_le ptr (add_le_add_right le state.pointers)).trans
      (owned.once ptr isLive outside)
  frames := owned.frames

/-- The request in hand moves to the stack. -/
theorem Owned.push (owned : Owned buffer state hand) (frame : HookFrame)
    (ok : FrameOk buffer state frame) (carries : frame.pointers ≤ hand)
    (other : frame.isMmapAnnon = false) : Owned buffer (state.push frame) 0 where
  used := owned.used
  region := owned.region
  locked := owned.locked
  mapsOnce := by
    simp only [HookState.push, List.countP_cons, other]
    exact owned.mapsOnce
  apart := owned.apart
  held := by
    intro ptr member
    rw [add_zero, pointers_push] at member
    exact owned.held ptr (Multiset.mem_of_le (add_le_add_right carries state.pointers) member)
  once := by
    intro ptr isLive outside
    rw [add_zero, pointers_push]
    exact (Multiset.count_le_of_le ptr (add_le_add_right carries state.pointers)).trans
      (owned.once ptr isLive outside)
  frames := by
    intro other member
    rcases List.mem_cons.1 member with rfl | member
    · exact ok
    · exact owned.frames other member

/-- The fields that the invariant does not speak about. -/
theorem Owned.frame (owned : Owned buffer state hand) (resolved : LibcSymbol → Bool)
    (doMallocInit doCallocInit : Bool) (mallocCount : ℕ) (memory : ByteMem) (status : HookStatus)
    (reallocs : List Reallocated) :
    Owned buffer
      { state with
        resolved := resolved
        doMallocInit := doMallocInit
        doCallocInit := doCallocInit
        mallocCount := mallocCount
        memory := memory
        status := status
        reallocs := reallocs } hand :=
  ⟨owned.used, owned.region, owned.locked, owned.mapsOnce, owned.apart, owned.held, owned.once,
    owned.frames⟩

theorem Owned.give (owned : Owned buffer state hand) (block : Block)
    (area : InBuffer buffer block.ptr ∨ state.InMap block.ptr) :
    Owned buffer (state.give block) hand where
  used := owned.used
  region := owned.region
  locked := owned.locked
  mapsOnce := owned.mapsOnce
  apart := owned.apart
  held := by
    intro ptr member
    rw [pointers_give, add_right_comm, Multiset.mem_add, Multiset.mem_singleton] at member
    rcases member with member | rfl
    · exact owned.held ptr member
    · rcases area with inBuffer | inMap
      · exact Or.inl inBuffer
      · exact Or.inr (Or.inl inMap)
  once := by
    intro ptr isLive outside
    have differs : ptr ≠ block.ptr := by
      rintro rfl
      rcases area with inBuffer | inMap
      · exact outside inBuffer
      · exact (owned.apart _ isLive).2 (Or.inr inMap)
    rw [pointers_give, add_right_comm, Multiset.count_add, Multiset.count_singleton, if_neg differs,
      add_zero]
    exact owned.once ptr isLive outside
  frames := owned.frames

/-- A pointer of the C library goes back to it. -/
theorem Owned.release {ptr : ℕ} (owned : Owned buffer state {ptr})
    (isLive : ptr ∈ Ledger.live state.heap) (outside : ¬InBuffer buffer ptr) :
    Owned buffer { state with heap := state.heap ++ [.release ptr] } 0 := by
  have gone : ptr ∉ state.pointers := by
    intro member
    have twice := owned.once ptr isLive outside
    rw [Multiset.count_add, Multiset.count_singleton_self] at twice
    have once := Multiset.one_le_count_iff_mem.2 member
    omega
  exact
    { used := owned.used
      region := owned.region
      locked := owned.locked
      mapsOnce := owned.mapsOnce
      apart := by
        intro other isLive'
        rw [Ledger.live_release] at isLive'
        exact owned.apart other isLive'.1
      held := by
        intro other member
        rw [add_zero] at member
        have differs : other ≠ ptr := by
          rintro rfl
          exact gone member
        rw [Ledger.live_release]
        rcases owned.held other (Multiset.mem_add.2 (Or.inl member)) with inBuffer | inMap | isLive'
        · exact Or.inl inBuffer
        · exact Or.inr (Or.inl inMap)
        · exact Or.inr (Or.inr ⟨isLive', differs⟩)
      once := by
        intro other isLive' outside'
        rw [Ledger.live_release] at isLive'
        rw [add_zero]
        have once := owned.once other isLive'.1 outside'
        rw [Multiset.count_add] at once
        exact le_trans (Nat.le_add_right _ _) once
      frames := owned.frames }

theorem Owned.use (owned : Owned buffer state hand) (ptr : ℕ) :
    Owned buffer { state with heap := state.heap ++ [.use ptr] } hand := by
  have same : Ledger.live (state.heap ++ [.use ptr]) = Ledger.live state.heap :=
    Ledger.live_use state.heap ptr
  refine ⟨owned.used, owned.region, owned.locked, owned.mapsOnce, ?_, ?_, ?_, owned.frames⟩
  · rw [same]
    exact owned.apart
  · rw [same]
    exact owned.held
  · rw [same]
    exact owned.once

/-- The pointer in hand goes back to the caller. -/
theorem Owned.giveBack {block : Block} (owned : Owned buffer state {block.ptr}) :
    Owned buffer (state.give block) 0 := by
  have same : (state.give block).pointers + 0 = state.pointers + {block.ptr} := by
    rw [pointers_give, add_zero]
  refine ⟨owned.used, owned.region, owned.locked, owned.mapsOnce, owned.apart, ?_, ?_, owned.frames⟩
  · rw [same]
    exact owned.held
  · rw [same]
    exact owned.once

/-- The C library hands out a new pointer. -/
theorem Owned.acquire (owned : Owned buffer state 0) {ptr : ℕ} (size : ℕ)
    (fresh : ptr ∉ Ledger.live state.heap) (nonnull : ptr ≠ 0)
    (outside : ¬InArea buffer state ptr) :
    Owned buffer
      ({ state with heap := state.heap ++ [Ledger.Event.acquire ptr] }.give ⟨ptr, size⟩) 0 where
  used := owned.used
  region := owned.region
  locked := owned.locked
  mapsOnce := owned.mapsOnce
  apart := by
    intro other isLive
    rw [HookState.give, Ledger.live_acquire] at isLive
    rcases isLive with rfl | isLive
    · exact ⟨nonnull, outside⟩
    · exact owned.apart other isLive
  held := by
    intro other member
    rw [pointers_give, add_right_comm, Multiset.mem_add, Multiset.mem_singleton] at member
    rw [HookState.give, Ledger.live_acquire]
    rcases member with member | rfl
    · rcases owned.held other member with inBuffer | inMap | isLive
      · exact Or.inl inBuffer
      · exact Or.inr (Or.inl inMap)
      · exact Or.inr (Or.inr (Set.mem_insert_of_mem _ isLive))
    · exact Or.inr (Or.inr (Set.mem_insert ..))
  once := by
    intro other isLive outside'
    rw [HookState.give, Ledger.live_acquire] at isLive
    rw [pointers_give, add_right_comm, Multiset.count_add]
    rcases isLive with rfl | isLive
    · have notOut : other ∉ state.pointers + 0 := by
        intro member
        rcases owned.held other member with inBuffer | inMap | isLive
        · exact outside' inBuffer
        · exact outside (Or.inr inMap)
        · exact fresh isLive
      have none := Multiset.count_eq_zero_of_notMem notOut
      calc
        _ = (state.pointers + 0).count other + 1 := by
            rw [Multiset.count_singleton_self]
            rfl
        _ ≤ 1 := by omega
    · have differs : other ≠ ptr := by
        rintro rfl
        exact fresh isLive
      rw [Multiset.count_singleton, if_neg differs, add_zero]
      exact owned.once other isLive outside'
  frames := owned.frames

end Invariant

/-! ## The steps -/

section Steps

variable {buffer : ℕ} {state : HookState} {hand : Multiset ℕ}

/-- A step that makes no call of the C library's allocator. -/
theorem passesOwn_of_same {after : HookState} (heap : after.heap = state.heap)
    (reallocs : after.reallocs = state.reallocs) : PassesOwn buffer state after where
  owned := by
    rw [heap, List.drop_length]
    simp
  contents := by
    rw [reallocs, List.drop_length]
    simp

theorem Owned.setMap (owned : Owned buffer state hand) {map : ℕ} (le : state.map ≤ map) :
    Owned buffer { state with map := map } hand :=
  ⟨owned.used, fun start isStart => (owned.region start isStart).trans le, owned.locked,
    owned.mapsOnce, owned.apart, owned.held, owned.once, owned.frames⟩

theorem Owned.setUsed (owned : Owned buffer state hand) {used : ℕ} (le : used ≤ bufferSize) :
    Owned buffer { state with bufferUsed := used } hand :=
  ⟨le, owned.region, owned.locked, owned.mapsOnce, owned.apart, owned.held, owned.once,
    owned.frames⟩

theorem Owned.exit (owned : Owned buffer state hand) : Owned buffer (state.push .exit) 0 :=
  owned.push .exit trivial (Multiset.zero_le hand) rfl

/-- A step that keeps the invariant and passes only what is the C library's own. -/
def Safe (buffer : ℕ) (state after : HookState) : Prop :=
  Owned buffer after 0 ∧ PassesOwn buffer state after

/-- The fields of the state before a step that its safety depends on. -/
theorem Safe.of_same {before after : HookState} (safe : Safe buffer state after)
    (heap : before.heap = state.heap) (reallocs : before.reallocs = state.reallocs)
    (mapStart : before.mapStart = state.mapStart) : Safe buffer before after := by
  have sameArea : ∀ ptr, InArea buffer before ptr ↔ InArea buffer state ptr := by
    intro ptr
    simp only [InArea, HookState.InMap, mapStart]
  rcases safe with ⟨owned, passes⟩
  refine ⟨owned, ?_, ?_⟩
  · intro ptr passed
    rw [heap] at passed ⊢
    rw [sameArea]
    exact passes.owned ptr passed
  · intro call member
    rw [reallocs] at member
    rw [sameArea]
    exact passes.contents call member

theorem LibcSound.of_same {before after : HookState} (libc : LibcSound buffer state after)
    (heap : before.heap = state.heap) (mapStart : before.mapStart = state.mapStart) :
    LibcSound buffer before after := by
  have sameMap : ∀ ptr, before.InMap ptr ↔ state.InMap ptr := by
    intro ptr
    simp only [HookState.InMap, mapStart]
  refine ⟨libc.fresh, ?_, ?_⟩
  · rw [heap]
    intro ptr acquired
    simpa only [InArea, sameMap] using libc.outside ptr acquired
  · rw [heap]
    intro ptr isLive inMap
    exact (sameMap ptr).2 (libc.mapped ptr isLive inMap)

theorem Owned.safe {after : HookState} (owned : Owned buffer after 0)
    (heap : after.heap = state.heap) (reallocs : after.reallocs = state.reallocs) :
    Safe buffer state after :=
  ⟨owned, passesOwn_of_same heap reallocs⟩

theorem safe_pageMalloc (owned : Owned buffer state 0) (started : state.isDoInit = true)
    (size : ℕ) : Safe buffer state (pageMalloc size state) := by
  unfold pageMalloc
  split
  · exact (owned.frame _ _ _ _ _ _ _).safe rfl rfl
  · rename_i free
    have isMapped : state.mapStart ≠ none := fun unmapped => free (owned.locked started unmapped)
    rcases Option.ne_none_iff_exists'.1 isMapped with ⟨start, isStart⟩
    have above := owned.region start isStart
    have grown := owned.setMap (Nat.le_add_right state.map pageSize)
    split
    · exact grown.exit.safe rfl rfl
    · rename_i fits
      rw [isStart, Option.getD_some] at fits
      have inMap : state.InMap state.map := ⟨start, isStart, above, by omega⟩
      have counted := grown.frame state.resolved state.doMallocInit state.doCallocInit
        (u64 (state.mallocCount + 1)) state.memory state.status state.reallocs
      dsimp only
      split
      · exact (counted.push (.tracePage ⟨state.map, size⟩) inMap (Multiset.zero_le 0) rfl).safe rfl
          rfl
      · exact (counted.give ⟨state.map, size⟩ (Or.inr inMap)).safe rfl rfl

theorem safe_realMalloc (owned : Owned buffer state 0) {size : ℕ} {answer : HookAnswer}
    (libc : LibcSound buffer state (realMalloc size answer state)) :
    Safe buffer state (realMalloc size answer state) := by
  unfold realMalloc at libc ⊢
  cases returned : answer.real with
  | none => exact (owned.frame _ _ _ _ _ _ _).safe rfl rfl
  | some ptr =>
      rw [returned] at libc
      dsimp only [HookState.give] at libc
      have outside := libc.outside ptr (by simp)
      refine ⟨?_, ?_, ?_⟩
      · exact (owned.frame state.resolved state.doMallocInit state.doCallocInit
          state.mallocCount answer.memory state.status state.reallocs).acquire size
          libc.fresh.notMem outside.1 outside.2
      · simp [HookState.give]
      · simp [HookState.give]

/-- A pointer that is out, but in neither area, is of the C library. -/
theorem Owned.isLive (owned : Owned buffer state hand) {ptr : ℕ} (member : ptr ∈ hand)
    (notBuffer : ¬InBuffer buffer ptr) (notMap : ¬state.InMap ptr) :
    ptr ∈ Ledger.live state.heap := by
  rcases owned.held ptr (Multiset.mem_add.2 (Or.inr member)) with inBuffer | inMap | isLive
  · exact absurd inBuffer notBuffer
  · exact absurd inMap notMap
  · exact isLive

theorem safe_realFree {block : Block}
    (owned : Owned buffer state (HookRequest.free block).pointers)
    (ok : block.ptr = 0 ∨ ¬InBuffer buffer block.ptr ∧ ¬state.InMap block.ptr) :
    Safe buffer state (realFree block state) := by
  unfold realFree
  by_cases null : block.ptr = 0
  · simp only [null, if_true, List.append_nil]
    exact (owned.drop (Multiset.zero_le _)).safe rfl rfl
  · have inHand : (HookRequest.free block).pointers = {block.ptr} := by
      simp [HookRequest.pointers, HookRequest.block, null]
    rw [inHand] at owned
    rcases ok with isNull | ⟨notBuffer, notMap⟩
    · exact absurd isNull null
    · have isLive := owned.isLive (Multiset.mem_singleton_self _) notBuffer notMap
      simp only [null, if_false]
      refine ⟨owned.release isLive notBuffer, ?_, by simp⟩
      intro ptr passed
      simp only [List.drop_left, List.mem_singleton, reduceCtorEq, or_false,
        Ledger.Event.release.injEq] at passed
      rw [passed]
      exact ⟨isLive, (owned.apart _ isLive).2⟩

/-- `real_realloc` of a pointer of the C library: what is passed on is the old pointer. -/
theorem passesOwn_realRealloc {old : Block} {size : ℕ} {answer : HookAnswer}
    (own : old.ptr ≠ 0 → old.ptr ∈ Ledger.live state.heap ∧ ¬InArea buffer state old.ptr) :
    PassesOwn buffer state (realRealloc old size answer state) := by
  have heap : (realRealloc old size answer state).heap =
      state.heap ++ reallocEvents old size answer.real := by
    unfold realRealloc
    split
    · split <;> rfl
    · rfl
  have reallocs : (realRealloc old size answer state).reallocs =
      state.reallocs ++ [⟨old, size, answer.real, state.memory, answer.memory⟩] := by
    unfold realRealloc
    split
    · split <;> rfl
    · rfl
  refine ⟨?_, ?_⟩
  · intro ptr passed
    rw [heap, List.drop_left] at passed
    have isOld : ptr = old.ptr ∧ old.ptr ≠ 0 := by
      unfold reallocEvents at passed
      split at passed
      · split at passed
        · simp at passed
        · split at passed <;> simp_all
      · split at passed <;> simp_all
    rw [isOld.1]
    exact own isOld.2
  · rw [reallocs, List.drop_left]
    intro call member nonnull inArea
    rw [List.mem_singleton.1 member] at nonnull inArea
    exact absurd inArea (own nonnull).2

theorem owned_realRealloc_null {old : Block} {size : ℕ} {answer : HookAnswer}
    (owned : Owned buffer state 0) (null : old.ptr = 0)
    (libc : LibcSound buffer state (realRealloc old size answer state)) :
    Owned buffer (realRealloc old size answer state) 0 := by
  unfold realRealloc reallocEvents at libc ⊢
  cases returned : answer.real with
  | none =>
      simp only [null, if_true, List.append_nil, true_or]
      exact owned.frame _ _ _ _ _ _ _
  | some ptr =>
      simp only [returned, null, if_true, HookState.give] at libc ⊢
      have outside := libc.outside ptr (by simp)
      exact (owned.frame state.resolved state.doMallocInit state.doCallocInit state.mallocCount
        answer.memory state.status _).acquire size libc.fresh.notMem outside.1 outside.2

theorem owned_realRealloc {old : Block} {size : ℕ} {answer : HookAnswer} (nonnull : old.ptr ≠ 0)
    (owned : Owned buffer state {old.ptr}) (isLive : old.ptr ∈ Ledger.live state.heap)
    (notBuffer : ¬InBuffer buffer old.ptr)
    (libc : LibcSound buffer state (realRealloc old size answer state)) :
    Owned buffer (realRealloc old size answer state) 0 := by
  unfold realRealloc reallocEvents at libc ⊢
  cases returned : answer.real with
  | none =>
      by_cases freed : size = 0
      · simp only [nonnull, freed, if_true, if_false, or_true]
        exact (owned.release isLive notBuffer).frame _ _ _ _ _ _ _
      · -- the old block stays with the caller
        simp only [nonnull, freed, if_false, or_self]
        exact (owned.use old.ptr).giveBack.frame _ _ _ _ _ _ _
  | some ptr =>
      simp only [returned, nonnull, if_false, HookState.give] at libc ⊢
      have outside := libc.outside ptr (by simp)
      have released := (owned.release isLive notBuffer).frame state.resolved state.doMallocInit
        state.doCallocInit state.mallocCount answer.memory state.status
        (state.reallocs ++ [⟨old, size, some ptr, state.memory, answer.memory⟩])
      have fresh : Ledger.Fresh ((state.heap ++ [.release old.ptr]) ++ [.acquire ptr]) := by
        rw [List.append_assoc]
        exact libc.fresh
      have acquired := released.acquire size fresh.notMem outside.1 outside.2
      simpa [HookState.give] using acquired

theorem safe_realRealloc {old : Block} {size : ℕ} {answer : HookAnswer}
    (owned : Owned buffer state (HookRequest.realloc old size).pointers)
    (ok : RequestOk buffer state (.realloc old size))
    (libc : LibcSound buffer state (realRealloc old size answer state)) :
    Safe buffer state (realRealloc old size answer state) := by
  by_cases null : old.ptr = 0
  · refine ⟨owned_realRealloc_null (owned.drop (Multiset.zero_le _)) null libc, ?_⟩
    exact passesOwn_realRealloc fun nonnull => absurd null nonnull
  · have inHand : (HookRequest.realloc old size).pointers = {old.ptr} := by
      simp [HookRequest.pointers, HookRequest.block, null]
    rw [inHand] at owned
    rcases ok with isNull | ⟨notBuffer, notMap⟩
    · exact absurd isNull null
    · have isLive := owned.isLive (Multiset.mem_singleton_self _) notBuffer notMap
      exact ⟨owned_realRealloc null owned isLive notBuffer libc,
        passesOwn_realRealloc fun _ => ⟨isLive, (owned.apart _ isLive).2⟩⟩

theorem HookState.InMap.isMapAddress {ptr : ℕ} (inMap : state.InMap ptr) :
    state.isMapAddress ptr = true := by
  rcases inMap with ⟨start, isStart, lower, upper⟩
  simp [HookState.isMapAddress, isStart, lower, upper]

theorem safe_serve {request : HookRequest} {answer : HookAnswer}
    (owned : Owned buffer state request.pointers) (ok : RequestOk buffer state request)
    (started : state.isDoInit = true) (libc : LibcSound buffer state (serve request answer state)) :
    Safe buffer state (serve request answer state) := by
  cases request with
  | malloc size =>
      by_cases page : size = pageMallocSize
      · simp only [serve, page, if_true]
        exact safe_pageMalloc owned started pageMallocSize
      · simp only [serve, page, if_false] at libc ⊢
        exact safe_realMalloc owned libc
  | calloc nmemb size => exact safe_realMalloc owned libc
  | realloc old size => exact safe_realRealloc owned ok libc
  | free block =>
      unfold serve
      dsimp only
      split
      · exact (owned.drop (Multiset.zero_le _)).safe rfl rfl
      · rename_i other
        have notMap : ¬state.InMap block.ptr := fun inMap => other inMap.isMapAddress
        apply safe_realFree owned
        rcases ok with null | notBuffer
        · exact Or.inl null
        · exact Or.inr ⟨notBuffer, notMap⟩

/-- `do_init` takes the lock and maps the region, once. -/
theorem Owned.startInit (owned : Owned buffer state hand) (fresh : state.isDoInit = false)
    (map : ℕ) : Owned buffer { state with isDoInit := true, locked := true, map := map } hand ∧
      state.stack.countP HookFrame.isMmapAnnon = 0 ∧ state.mapStart = none := by
  have none : state.stack.countP HookFrame.isMmapAnnon +
      (if state.mapStart.isSome then 1 else 0) ≤ 0 := by
    simpa [fresh] using owned.mapsOnce
  have unmapped : state.mapStart = Option.none := by
    by_contra isMapped
    have isSome : state.mapStart.isSome = true := Option.isSome_iff_ne_none.2 isMapped
    simp [isSome] at none
  have noFrame : state.stack.countP HookFrame.isMmapAnnon = 0 := by omega
  refine ⟨⟨owned.used, ?_, fun _ _ => rfl, ?_, owned.apart, owned.held, owned.once, owned.frames⟩,
    noFrame, unmapped⟩
  · intro start isStart
    rw [unmapped] at isStart
    cases isStart
  · simp only [noFrame, unmapped]
    decide

theorem Owned.pushMmapAnnon {request : HookRequest} (owned : Owned buffer state request.pointers)
    (ok : RequestOk buffer state request) (started : state.isDoInit = true)
    (noFrame : state.stack.countP HookFrame.isMmapAnnon = 0) (unmapped : state.mapStart = none) :
    Owned buffer (state.push (.mmapAnnon request)) 0 where
  used := owned.used
  region := owned.region
  locked := owned.locked
  mapsOnce := by
    simp only [HookState.push, List.countP_cons, noFrame, unmapped, started]
    simp [HookFrame.isMmapAnnon]
  apart := owned.apart
  held := by
    intro ptr member
    rw [add_zero, pointers_push] at member
    exact owned.held ptr member
  once := by
    intro ptr isLive outside
    rw [add_zero, pointers_push]
    exact owned.once ptr isLive outside
  frames := by
    intro other member
    rcases List.mem_cons.1 member with rfl | member
    · exact ok
    · exact owned.frames other member

theorem safe_doInit {request : HookRequest} {answer : HookAnswer}
    (owned : Owned buffer state request.pointers) (ok : RequestOk buffer state request)
    (libc : LibcSound buffer state (doInit request answer state)) :
    Safe buffer state (doInit request answer state) := by
  unfold doInit at libc ⊢
  split
  · rename_i started
    rw [if_pos started] at libc
    exact safe_serve owned ok started libc
  · rename_i notStarted
    have fresh : state.isDoInit = false := by simpa using notStarted
    dsimp only
    split
    · rename_i isLocked
      rcases owned.startInit fresh state.map with ⟨started, -, -⟩
      have waits : Owned buffer { state with isDoInit := true, status := .deadlocked } 0 :=
        ⟨owned.used, owned.region, fun _ _ => isLocked, started.mapsOnce, owned.apart,
          (owned.drop (Multiset.zero_le _)).held, (owned.drop (Multiset.zero_le _)).once,
          owned.frames⟩
      exact waits.safe rfl rfl
    · cases mapped : answer.mmap with
      | none => exact ((owned.startInit fresh (2 ^ 64 - 1)).1.exit).safe rfl rfl
      | some address =>
          rcases owned.startInit fresh address with ⟨started, noFrame, unmapped⟩
          exact (started.pushMmapAnnon ok rfl noFrame unmapped).safe rfl rfl

theorem inBuffer_of_le {used : ℕ} (le : used ≤ bufferSize) : InBuffer buffer (buffer + used) :=
  ⟨by omega, by omega⟩

theorem safe_mmMalloc (owned : Owned buffer state 0) (size : ℕ) :
    Safe buffer state (mmMalloc buffer size state) := by
  unfold mmMalloc
  split
  · rename_i fits
    exact ((owned.setUsed fits).give ⟨buffer + state.bufferUsed, size⟩
      (Or.inl (inBuffer_of_le owned.used))).safe rfl rfl
  · exact owned.exit.safe rfl rfl

theorem safe_mmCalloc (owned : Owned buffer state 0) (nmemb size : ℕ) :
    Safe buffer state (mmCalloc buffer nmemb size state) := by
  unfold mmCalloc
  dsimp only
  split
  · rename_i fits
    split
    · exact (owned.frame _ _ _ _ _ _ _).safe rfl rfl
    · have cleared := (owned.setUsed fits).frame state.resolved state.doMallocInit
        state.doCallocInit state.mallocCount
        (state.memory.writeBytes (buffer + state.bufferUsed)
          (List.replicate (u64 (nmemb * size)) 0)) state.status state.reallocs
      exact (cleared.give ⟨buffer + state.bufferUsed, nmemb * size⟩
        (Or.inl (inBuffer_of_le owned.used))).safe rfl rfl
  · exact owned.exit.safe rfl rfl

theorem safe_enter {request : HookRequest} {answer : HookAnswer}
    (owned : Owned buffer state request.pointers)
    (avoids : AvoidsAreas buffer state (.call request state.memory answer))
    (libc : LibcSound buffer state (enter buffer request answer state)) :
    Safe buffer state (enter buffer request answer state) := by
  cases request with
  | malloc size =>
      unfold enter at libc ⊢
      dsimp only at libc ⊢
      split
      · rename_i found
        rw [if_pos found] at libc
        exact safe_doInit owned trivial libc
      · split
        · exact safe_mmMalloc owned size
        · exact ((owned.frame _ true _ _ _ _ _).push (.resolve (.malloc size)) trivial le_rfl
            rfl).safe rfl rfl
  | calloc nmemb size =>
      unfold enter at libc ⊢
      dsimp only at libc ⊢
      split
      · rename_i found
        rw [if_pos found] at libc
        exact safe_doInit owned trivial libc
      · split
        · exact safe_mmCalloc owned nmemb size
        · exact ((owned.frame _ _ true _ _ _ _).push (.resolve (.calloc nmemb size)) trivial le_rfl
            rfl).safe rfl rfl
  | realloc old size =>
      have ok : RequestOk buffer state (.realloc old size) := avoids
      unfold enter at libc ⊢
      dsimp only at libc ⊢
      split
      · rename_i found
        rw [if_pos found] at libc
        exact safe_doInit owned ok libc
      · exact (owned.push (.resolve (.realloc old size)) ok le_rfl rfl).safe rfl rfl
  | free block =>
      have notEnd : block.ptr ≠ buffer + bufferSize := avoids
      unfold enter at libc ⊢
      dsimp only at libc ⊢
      split
      · exact (owned.push .here trivial (Multiset.zero_le _) rfl).safe rfl rfl
      · rename_i elsewhere
        rw [if_neg elsewhere] at libc
        have notBuffer : ¬InBuffer buffer block.ptr := by
          rintro ⟨lower, upper⟩
          apply elsewhere
          simp only [mmIsAddress, Bool.and_eq_true, decide_eq_true_eq]
          exact ⟨lower, by omega⟩
        have ok : RequestOk buffer state (.free block) := Or.inr notBuffer
        split
        · rename_i found
          rw [if_pos found] at libc
          exact safe_doInit owned ok libc
        · exact (owned.push (.resolve (.free block)) ok le_rfl rfl).safe rfl rfl

/-- The frame that the hook goes on with leaves the stack. -/
theorem Owned.pop {frame : HookFrame} {stack : List HookFrame} (owned : Owned buffer state 0)
    (top : state.stack = frame :: stack) :
    Owned buffer { state with stack := stack } frame.pointers ∧ FrameOk buffer state frame := by
  have pointers : { state with stack := stack }.pointers + frame.pointers = state.pointers + 0 := by
    simp only [HookState.pointers, top, List.map_cons, List.sum_cons, add_zero]
    rw [add_assoc, add_comm frame.pointers]
  have fewer : stack.countP HookFrame.isMmapAnnon ≤ state.stack.countP HookFrame.isMmapAnnon := by
    rw [top, List.countP_cons]
    exact Nat.le_add_right _ _
  refine ⟨⟨owned.used, owned.region, owned.locked, ?_, owned.apart, ?_, ?_, ?_⟩, ?_⟩
  · exact (Nat.add_le_add_right fewer _).trans owned.mapsOnce
  · rw [pointers]
    exact owned.held
  · rw [pointers]
    exact owned.once
  · intro other member
    exact owned.frames other (by rw [top]; exact List.mem_cons_of_mem _ member)
  · exact owned.frames frame (by rw [top]; exact List.mem_cons_self ..)

theorem HookRequest.mem_pointers {request : HookRequest} {block : Block}
    (carried : request.block = some block) : block.ptr ∈ request.pointers := by
  simp [HookRequest.pointers, carried]

/-- Requests in flight stay fit to be passed on when the region appears: their blocks are of the
C library, and the region overlaps with none of these. -/
theorem RequestOk.setMapStart {request : HookRequest} {pointers : Multiset ℕ}
    (ok : RequestOk buffer state request)
    (inFlight : request.pointers ≤ pointers)
    (held : ∀ ptr ∈ pointers,
      InBuffer buffer ptr ∨ state.InMap ptr ∨ ptr ∈ Ledger.live state.heap)
    (apart : ∀ ptr ∈ Ledger.live state.heap, ¬{ state with mapStart := some state.map }.InMap ptr) :
    RequestOk buffer { state with mapStart := some state.map } request := by
  cases request with
  | malloc size => trivial
  | calloc nmemb size => trivial
  | free block => exact ok
  | realloc old size =>
      rcases ok with null | ⟨notBuffer, notMap⟩
      · exact Or.inl null
      · by_cases null : old.ptr = 0
        · exact Or.inl null
        · have carried : (HookRequest.realloc old size).block = some old := by
            simp [HookRequest.block, null]
          have member := Multiset.mem_of_le inFlight (HookRequest.mem_pointers carried)
          rcases held old.ptr member with inBuffer | inMap | isLive
          · exact absurd inBuffer notBuffer
          · exact absurd inMap notMap
          · exact Or.inr ⟨notBuffer, apart old.ptr isLive⟩

theorem HookFrame.pointers_le {frame : HookFrame} (member : frame ∈ state.stack) :
    frame.pointers ≤ state.pointers := by
  rcases List.append_of_mem member with ⟨above, below, split⟩
  simp only [HookState.pointers, split, List.map_append, List.map_cons, List.sum_append,
    List.sum_cons]
  rw [Multiset.le_iff_exists_add]
  exact ⟨Multiset.ofList (state.live.map Block.ptr) + (above.map HookFrame.pointers).sum +
    (below.map HookFrame.pointers).sum, by ac_rfl⟩

/-- `mmap_annon` sets `map_start`. -/
theorem Owned.setMapStart (owned : Owned buffer state hand) (started : state.isDoInit = true)
    (unmapped : state.mapStart = none) (noFrame : state.stack.countP HookFrame.isMmapAnnon = 0)
    (apart : ∀ ptr ∈ Ledger.live state.heap, ¬{ state with mapStart := some state.map }.InMap ptr) :
    Owned buffer { state with mapStart := some state.map } hand := by
  have noMap : ∀ ptr, ¬state.InMap ptr := by
    rintro ptr ⟨start, isStart, -⟩
    rw [unmapped] at isStart
    cases isStart
  have heldIn : ∀ ptr ∈ state.pointers,
      InBuffer buffer ptr ∨ state.InMap ptr ∨ ptr ∈ Ledger.live state.heap := by
    intro ptr member
    exact owned.held ptr (Multiset.mem_add.2 (Or.inl member))
  refine ⟨owned.used, ?_, ?_, ?_, ?_, ?_, owned.once, ?_⟩
  · intro start isStart
    cases isStart
    exact le_rfl
  · intro _ isNone
    cases isNone
  · simp [noFrame, started]
  · intro ptr isLive
    refine ⟨(owned.apart ptr isLive).1, ?_⟩
    rintro (inBuffer | inMap)
    · exact (owned.apart ptr isLive).2 (Or.inl inBuffer)
    · exact apart ptr isLive inMap
  · intro ptr member
    rcases owned.held ptr member with inBuffer | inMap | isLive
    · exact Or.inl inBuffer
    · exact absurd inMap (noMap ptr)
    · exact Or.inr (Or.inr isLive)
  · intro frame member
    have ok := owned.frames frame member
    have inFlight := HookFrame.pointers_le member
    cases frame with
    | resolve request => exact RequestOk.setMapStart ok inFlight heldIn apart
    | hereNumber request => exact RequestOk.setMapStart ok inFlight heldIn apart
    | mmapAnnon request => exact RequestOk.setMapStart ok inFlight heldIn apart
    | lockPages request => exact absurd unmapped ok.2
    | statFile request => exact absurd unmapped ok.2
    | here => trivial
    | tracePage block => exact absurd ok (noMap block.ptr)
    | exit => trivial

theorem Owned.unlock (owned : Owned buffer state hand) (isMapped : state.mapStart ≠ none) :
    Owned buffer { state with locked := false } hand :=
  ⟨owned.used, owned.region, fun _ unmapped => absurd unmapped isMapped, owned.mapsOnce,
    owned.apart, owned.held, owned.once, owned.frames⟩

theorem Owned.isDoInit_of_mapped (owned : Owned buffer state hand)
    (isMapped : state.mapStart ≠ none) : state.isDoInit = true := by
  have isSome : state.mapStart.isSome = true := Option.isSome_iff_ne_none.2 isMapped
  have once := owned.mapsOnce
  by_contra notStarted
  simp [isSome, notStarted] at once

theorem safe_goOn {frame : HookFrame} {answer : HookAnswer}
    (owned : Owned buffer state frame.pointers) (ok : FrameOk buffer state frame)
    (mapping : ∀ request, frame = .mmapAnnon request → state.isDoInit = true ∧
      state.mapStart = none ∧ state.stack.countP HookFrame.isMmapAnnon = 0)
    (libc : LibcSound buffer state (goOn frame answer state)) :
    Safe buffer state (goOn frame answer state) := by
  cases frame with
  | resolve request =>
      unfold goOn at libc ⊢
      dsimp only at libc ⊢
      split
      · rename_i found
        rw [if_pos found] at libc
        have resolved := owned.frame (Function.update state.resolved request.symbol true)
          state.doMallocInit state.doCallocInit state.mallocCount state.memory state.status
          state.reallocs
        cases request with
        | malloc size =>
            exact (resolved.push (.hereNumber (.malloc size)) ok le_rfl rfl).safe rfl rfl
        | calloc nmemb size =>
            exact (resolved.push (.hereNumber (.calloc nmemb size)) ok le_rfl rfl).safe rfl rfl
        | realloc old size =>
            have ok' : RequestOk buffer
                { state with resolved := Function.update state.resolved .realloc true }
                (.realloc old size) := ok
            exact (safe_doInit resolved ok' (libc.of_same rfl rfl)).of_same rfl rfl rfl
        | free block =>
            have ok' : RequestOk buffer
                { state with resolved := Function.update state.resolved .free true }
                (.free block) := ok
            exact (safe_doInit resolved ok' (libc.of_same rfl rfl)).of_same rfl rfl rfl
      · exact owned.exit.safe rfl rfl
  | hereNumber request => exact safe_doInit owned ok libc
  | mmapAnnon request =>
      rcases mapping request rfl with ⟨started, unmapped, noFrame⟩
      have noMap : ∀ ptr, ¬state.InMap ptr := by
        rintro ptr ⟨start, isStart, -⟩
        rw [unmapped] at isStart
        cases isStart
      have apart : ∀ ptr ∈ Ledger.live state.heap,
          ¬{ state with mapStart := some state.map }.InMap ptr := by
        intro ptr isLive inMap
        exact noMap ptr (libc.mapped ptr isLive inMap)
      have held : ∀ ptr ∈ request.pointers,
          InBuffer buffer ptr ∨ state.InMap ptr ∨ ptr ∈ Ledger.live state.heap := by
        intro ptr member
        exact owned.held ptr (Multiset.mem_add.2 (Or.inr member))
      have still : RequestOk buffer { state with mapStart := some state.map } request :=
        RequestOk.setMapStart ok le_rfl held apart
      exact ((owned.setMapStart started unmapped noFrame apart).push (.lockPages request)
        ⟨still, by simp⟩ le_rfl rfl).safe rfl rfl
  | lockPages request =>
      exact ((owned.unlock ok.2).push (.statFile request) ok le_rfl rfl).safe rfl rfl
  | statFile request =>
      unfold goOn at libc ⊢
      dsimp only at libc ⊢
      split
      · rename_i opened
        rw [if_pos opened] at libc
        exact safe_serve owned ok.1 (owned.isDoInit_of_mapped ok.2) libc
      · exact owned.exit.safe rfl rfl
  | here => exact owned.safe rfl rfl
  | tracePage block => exact (owned.give block (Or.inr ok)).safe rfl rfl
  | exit => exact (owned.frame _ _ _ _ _ _ _).safe rfl rfl

/-- A caller gives up a block that it owns. -/
theorem Owned.takeBack {request : HookRequest} (owned : Owned buffer state 0)
    (live : ∀ block ∈ request.block, block ∈ state.live) :
    Owned buffer (state.takeBack request) request.pointers := by
  unfold HookState.takeBack
  cases carried : request.block with
  | none =>
      have empty : request.pointers = 0 := by simp [HookRequest.pointers, carried]
      rw [empty]
      exact owned
  | some block =>
      have member := live block carried
      have inHand : request.pointers = {block.ptr} := by simp [HookRequest.pointers, carried]
      have same : { state with live := state.live.erase block }.pointers + request.pointers =
          state.pointers + 0 := by
        have moved := Multiset.coe_eq_coe.2 ((List.perm_cons_erase member).map Block.ptr)
        simp only [HookState.pointers, inHand, add_zero, moved, List.map_cons, ← Multiset.cons_coe,
          ← Multiset.singleton_add]
        ac_rfl
      dsimp only
      refine ⟨owned.used, owned.region, owned.locked, owned.mapsOnce, owned.apart, ?_, ?_,
        owned.frames⟩
      · rw [same]
        exact owned.held
      · rw [same]
        exact owned.once

theorem AvoidsAreas.of_same {before : HookState} {request : HookRequest} {memory memory' : ByteMem}
    {answer : HookAnswer} (avoids : AvoidsAreas buffer state (.call request memory answer))
    (mapStart : before.mapStart = state.mapStart) :
    AvoidsAreas buffer before (.call request memory' answer) := by
  cases request with
  | realloc old size => simpa only [AvoidsAreas, HookState.InMap, mapStart] using avoids
  | _ => exact avoids

theorem takeBack_same (state : HookState) (request : HookRequest) :
    (state.takeBack request).heap = state.heap ∧
      (state.takeBack request).reallocs = state.reallocs ∧
        (state.takeBack request).mapStart = state.mapStart := by
  unfold HookState.takeBack
  split
  · exact ⟨rfl, rfl, rfl⟩
  · exact ⟨rfl, rfl, rfl⟩

theorem safe_call (owned : Owned buffer state 0) {request : HookRequest} {memory : ByteMem}
    {answer : HookAnswer} (live : PassesLive state (.call request memory answer))
    (avoids : AvoidsAreas buffer state (.call request memory answer))
    (libc : LibcSound buffer state
      (enter buffer request answer { state.takeBack request with memory := memory })) :
    Safe buffer state
      (enter buffer request answer { state.takeBack request with memory := memory }) := by
  rcases takeBack_same state request with ⟨heap, reallocs, mapStart⟩
  have taken := owned.takeBack live
  generalize state.takeBack request = inner at taken heap reallocs mapStart libc ⊢
  have entered := taken.frame inner.resolved inner.doMallocInit inner.doCallocInit
    inner.mallocCount memory inner.status inner.reallocs
  exact (safe_enter entered (avoids.of_same mapStart) (libc.of_same heap mapStart)).of_same
    heap.symm reallocs.symm mapStart.symm

theorem safe_resume (owned : Owned buffer state 0) {memory : ByteMem} {answer : HookAnswer}
    {frame : HookFrame} {stack : List HookFrame} (top : state.stack = frame :: stack)
    (libc : LibcSound buffer state
      (goOn frame answer { state with memory := memory, stack := stack })) :
    Safe buffer state (goOn frame answer { state with memory := memory, stack := stack }) := by
  rcases owned.pop top with ⟨popped, ok⟩
  have entered := popped.frame state.resolved state.doMallocInit state.doCallocInit
    state.mallocCount memory state.status state.reallocs
  have ok' : FrameOk buffer { state with memory := memory, stack := stack } frame := by
    cases frame <;> exact ok
  have mapping : ∀ request, frame = .mmapAnnon request → state.isDoInit = true ∧
      state.mapStart = none ∧ stack.countP HookFrame.isMmapAnnon = 0 := by
    intro request isMmap
    have once := owned.mapsOnce
    rw [top, isMmap, List.countP_cons] at once
    have counted : (HookFrame.mmapAnnon request).isMmapAnnon = true := rfl
    rw [if_pos counted] at once
    cases started : state.isDoInit with
    | false => simp [started] at once
    | true =>
        cases isMapped : state.mapStart with
        | none =>
            refine ⟨rfl, rfl, ?_⟩
            simp only [started, isMapped, if_true] at once
            omega
        | some start => simp [started, isMapped] at once
  exact (safe_goOn entered ok' mapping (libc.of_same rfl rfl)).of_same rfl rfl rfl

theorem safe_hookStep (owned : Owned buffer state 0) {move : HookMove}
    (live : PassesLive state move) (avoids : AvoidsAreas buffer state move)
    (libc : LibcSound buffer state (hookStep buffer state move)) :
    Safe buffer state (hookStep buffer state move) := by
  unfold hookStep at libc ⊢
  split
  · exact owned.safe rfl rfl
  · rename_i running
    rw [if_neg running] at libc
    cases move with
    | call request memory answer => exact safe_call owned live avoids libc
    | resume memory answer =>
        dsimp only at libc ⊢
        cases top : state.stack with
        | nil => exact owned.safe rfl rfl
        | cons frame stack =>
            rw [top] at libc
            exact safe_resume owned top libc

theorem owned_initial (buffer : ℕ) : Owned buffer HookState.initial 0 where
  used := Nat.zero_le _
  region := by
    intro start isStart
    cases isStart
  locked := by
    intro started
    cases started
  mapsOnce := le_rfl
  apart := by
    intro ptr isLive
    exact absurd isLive (Set.notMem_empty ptr)
  held := by
    intro ptr member
    exact absurd member (Multiset.notMem_zero ptr)
  once := by
    intro ptr isLive
    exact absurd isLive (Set.notMem_empty ptr)
  frames := by
    intro frame member
    cases member

/-- Over every run in which no block of the two areas is reallocated, and none at the end of the
bootstrap buffer is freed, the hook passes only the C library's own pointers on. -/
theorem hook_passesOwn (buffer : ℕ) (moves : List HookMove)
    (live : Runs.Throughout (hookStep buffer) PassesLive .initial moves)
    (libc : Runs.Throughout (hookStep buffer)
      (fun state move => LibcSound buffer state (hookStep buffer state move)) .initial moves)
    (avoids : Runs.Throughout (hookStep buffer) (AvoidsAreas buffer) .initial moves) :
    Runs.Throughout (hookStep buffer)
      (fun state move => PassesOwn buffer state (hookStep buffer state move)) .initial moves := by
  have owned := owned_initial buffer
  generalize HookState.initial = state at owned live libc avoids ⊢
  induction moves generalizing state with
  | nil => exact Runs.throughout_nil _
  | cons move moves ih =>
      rcases live with ⟨liveNow, liveLater⟩
      rcases libc with ⟨libcNow, libcLater⟩
      rcases avoids with ⟨avoidsNow, avoidsLater⟩
      rcases safe_hookStep owned liveNow avoidsNow libcNow with ⟨after, passes⟩
      exact ⟨passes, ih _ after liveLater libcLater avoidsLater⟩

end Steps

/-! ## Runs of the hook -/

section Examples

/-- The answers of a run in which nothing fails. -/
def plainAnswer (real : ℕ) : HookAnswer where
  dlsym := true
  mmap := some 0x7f0000000000
  fopen := true
  real := some real
  memory := ByteMem.zero

def plainCall (request : HookRequest) (real : ℕ) : HookMove :=
  .call request ByteMem.zero (plainAnswer real)

def plainReturn (real : ℕ) : HookMove := .resume ByteMem.zero (plainAnswer real)

/-- The first call of `malloc`: the symbol is resolved and the region is mapped on the way. -/
def firstMalloc (size real : ℕ) : List HookMove :=
  plainCall (.malloc size) real :: List.replicate 5 (plainReturn real)

theorem libcSound_of_empty {buffer : ℕ} {state after : HookState} (empty : state.heap = [])
    (stays : after.heap = []) : LibcSound buffer state after := by
  refine ⟨?_, ?_, ?_⟩
  · rw [stays]
    exact Runs.throughout_nil _
  · rw [stays, empty]
    simp
  · rw [empty]
    intro ptr isLive
    exact absurd isLive (Set.notMem_empty ptr)

theorem libcSound_of_events {buffer start : ℕ} {state after : HookState}
    (earlier events : List (Ledger.Event ℕ)) (before : state.heap = earlier)
    (heap : after.heap = earlier ++ events) (fresh : Ledger.Fresh (earlier ++ events))
    (isStart : state.mapStart = some start) (stays : after.mapStart = some start)
    (outside : ∀ ptr, .acquire ptr ∈ events →
      ptr ≠ 0 ∧ mmIsAddress buffer ptr = false ∧ ptr < start) :
    LibcSound buffer state after := by
  refine ⟨?_, ?_, ?_⟩
  · rwa [heap]
  · intro ptr acquired
    rw [heap, before, List.drop_left] at acquired
    rcases outside ptr acquired with ⟨nonnull, notBuffer, below⟩
    refine ⟨nonnull, ?_⟩
    rintro (inBuffer | ⟨start', isStart', above, -⟩)
    · rw [notBuffer] at inBuffer
      cases inBuffer
    · rw [isStart] at isStart'
      cases isStart'
      omega
  · intro ptr _ inMap
    rwa [HookState.InMap, stays, ← isStart] at inMap

/-- A block of each allocator is allocated and freed: one of the bootstrap buffer, while `dlsym`
looks up `malloc` for the first call, one of the C library and one of the premapped region. -/
def mallocAndFree : List HookMove :=
  [plainCall (.malloc 100) 0, plainCall (.malloc 32) 0, plainCall (.free ⟨0x500000, 32⟩) 0,
    plainReturn 0] ++
  List.replicate 5 (plainReturn 0x600010) ++
  [plainCall (.malloc pageMallocSize) 0, plainCall (.free ⟨0x7f0000000000, pageMallocSize⟩) 0,
    plainReturn 0, plainCall (.free ⟨0x600010, 100⟩) 0]

/-- The three blocks are handed out, and the hook passes on only the one of the C library. -/
theorem hook_passesOwn_mallocAndFree :
    Runs.Throughout (hookStep 0x500000)
      (fun state move => PassesOwn 0x500000 state (hookStep 0x500000 state move)) .initial
      mallocAndFree ∧
    (Runs.after (hookStep 0x500000) .initial (mallocAndFree.take 2)).live = [⟨0x500000, 32⟩] ∧
    (Runs.after (hookStep 0x500000) .initial (mallocAndFree.take 10)).live =
      [⟨0x7f0000000000, pageMallocSize⟩, ⟨0x600010, 100⟩] ∧
    (Runs.after (hookStep 0x500000) .initial mallocAndFree).heap =
      [.acquire 0x600010, .release 0x600010] := by
  have fresh : Ledger.Fresh [Ledger.Event.acquire 0x600010] :=
    ⟨fun _ _ => Set.notMem_empty _, trivial⟩
  have fresh' : Ledger.Fresh [Ledger.Event.acquire 0x600010, .release 0x600010] := by
    refine ⟨fun _ _ => Set.notMem_empty _, ?_, trivial⟩
    intro ptr isAcquire
    cases isAcquire
  refine ⟨?_, by decide +kernel, by decide +kernel, rfl⟩
  apply hook_passesOwn
  · refine ⟨?_, ?_, ?_, trivial, trivial, trivial, trivial, trivial, trivial, ?_, ?_, trivial, ?_,
      trivial⟩
    all_goals
      intro block carried
      cases carried
    all_goals decide
  · refine ⟨libcSound_of_empty rfl rfl, libcSound_of_empty rfl rfl, libcSound_of_empty rfl rfl,
      libcSound_of_empty rfl rfl, libcSound_of_empty rfl rfl, libcSound_of_empty rfl rfl,
      libcSound_of_empty rfl rfl, libcSound_of_empty rfl rfl, ?_, ?_, ?_, ?_, ?_, trivial⟩
    · refine libcSound_of_events [] [.acquire 0x600010] rfl rfl fresh rfl rfl ?_
      intro ptr acquired
      cases List.mem_singleton.1 acquired
      decide
    · exact libcSound_of_events [.acquire 0x600010] [] rfl rfl fresh rfl rfl nofun
    · exact libcSound_of_events [.acquire 0x600010] [] rfl rfl fresh rfl rfl nofun
    · exact libcSound_of_events [.acquire 0x600010] [] rfl rfl fresh rfl rfl nofun
    · refine libcSound_of_events [.acquire 0x600010] [.release 0x600010] rfl rfl fresh' rfl rfl ?_
      intro ptr acquired
      cases List.mem_singleton.1 acquired
  · refine ⟨trivial, trivial, ?_, trivial, trivial, trivial, trivial, trivial, trivial, trivial, ?_,
      trivial, ?_, trivial⟩
    · show (0x500000 : ℕ) ≠ 0x500000 + bufferSize
      decide
    · show (0x7f0000000000 : ℕ) ≠ 0x500000 + bufferSize
      decide
    · show (0x600010 : ℕ) ≠ 0x500000 + bufferSize
      decide

/-- A block of the premapped region is handed to `realloc`. -/
def mallocAndRealloc : List HookMove :=
  firstMalloc pageMallocSize 0 ++
    [plainCall (.realloc ⟨0x7f0000000000, pageMallocSize⟩ 8192) 0x600010, plainReturn 0x600010]

/-- The caller passes only its own block and the C library keeps its promises, and yet the hook
hands the address of a block that is not the C library's to `real_realloc`. -/
theorem hook_passes_page_to_realloc :
    Runs.Throughout (hookStep 0x500000) PassesLive .initial mallocAndRealloc ∧
    Runs.Throughout (hookStep 0x500000)
      (fun state move => LibcSound 0x500000 state (hookStep 0x500000 state move)) .initial
      mallocAndRealloc ∧
    ¬Runs.Throughout (hookStep 0x500000)
      (fun state move => PassesOwn 0x500000 state (hookStep 0x500000 state move)) .initial
      mallocAndRealloc := by
  have fresh : Ledger.Fresh [Ledger.Event.release 0x7f0000000000, .acquire 0x600010] := by
    refine ⟨?_, ?_, trivial⟩
    · intro ptr isAcquire
      cases isAcquire
    · intro ptr _
      simp [Ledger.step]
  refine ⟨?_, ?_, ?_⟩
  · refine ⟨?_, trivial, trivial, trivial, trivial, trivial, ?_, trivial, trivial⟩
    · intro block carried
      cases carried
    · intro block carried
      cases carried
      decide
  · refine ⟨libcSound_of_empty rfl rfl, libcSound_of_empty rfl rfl, libcSound_of_empty rfl rfl,
      libcSound_of_empty rfl rfl, libcSound_of_empty rfl rfl, libcSound_of_empty rfl rfl,
      libcSound_of_empty rfl rfl, ?_, trivial⟩
    refine libcSound_of_events [] [.release 0x7f0000000000, .acquire 0x600010] rfl
      (by decide +kernel) fresh rfl rfl ?_
    intro ptr acquired
    have isNew : ptr = 0x600010 := by simpa using acquired
    subst isNew
    decide
  · rintro ⟨-, -, -, -, -, -, -, passes, -⟩
    have isLive := (passes.owned 0x7f0000000000 (Or.inl (List.mem_cons_self ..))).1
    exact absurd isLive (Set.notMem_empty _)

end Examples

end Acai
