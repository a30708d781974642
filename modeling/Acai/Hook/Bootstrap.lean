import Acai.Hook.Allocator
import Acai.Lib.Runs
import Acai.Lib.Tiling

/-!
# The bootstrap buffer

While the hook looks up the symbols of the C library, `malloc` and `calloc` are
served by `mm_alloc`, from a buffer of 40960 bytes that takes nothing back. As long as
no size wraps around, the blocks tile the part of the buffer that is in use, so that
each of them lies in the buffer and overlaps with no other.

The guard of `mm_alloc` is a sum of words, and a size near `2 ^ 64` makes it wrap
around: the block is handed out, and the next ones start further to the front. `calloc`
passes a product of words on, which may wrap around as well. For `calloc` the first of
the two is no danger, since it clears the block and the process dies of that.

The runs are those of the whole hook, with calls of `mm_alloc` anywhere between the
other moves.
-/

namespace Acai

/-! ## Calls of `mm_alloc` -/

/-- The sizes of a call are words of 64 bits. -/
def HookMove.Words : HookMove → Prop
  | .call (.malloc size) _ _ => size < 2 ^ 64
  | .call (.calloc nmemb size) _ _ => nmemb < 2 ^ 64 ∧ size < 2 ^ 64
  | _ => True

abbrev WordMove := { move : HookMove // move.Words }

/-- How many bytes a request asks for. -/
def HookRequest.bytes : HookRequest → ℕ
  | malloc size | realloc _ size => size
  | calloc nmemb size => nmemb * size
  | free _ => 0

def Block.part (block : Block) : Part := ⟨block.ptr, block.size⟩

namespace HookState

/-- The symbol of a request is being looked up. -/
def bootstraps (state : HookState) : HookRequest → Bool
  | .malloc _ => !state.resolved .malloc && state.doMallocInit
  | .calloc _ _ => !state.resolved .calloc && state.doCallocInit
  | .realloc _ _ | .free _ => false

/-- The request that a move passes to `mm_alloc`. -/
def bootRequest (state : HookState) : HookMove → Option HookRequest
  | .call request _ _ =>
      if state.status = .running ∧ state.bootstraps request then some request else none
  | .resume _ _ => none

/-- The blocks that a step has handed out. -/
def newBlocks (state after : HookState) : List Block :=
  after.live.take (after.live.length - state.live.length)

/-- The process exits behind an error message, or has crashed. -/
def EndsProcess (state after : HookState) : Prop :=
  after.status = .crashed ∨ after.stack = .exit :: state.stack

/-- The sizes that `mm_alloc` works with are those that were asked for. A product that wraps
around does not matter if the buffer has no room for what is left of it. -/
def NoWrap (state : HookState) : HookRequest → Prop
  | .malloc size => state.bufferUsed + size < 2 ^ 64
  | .calloc nmemb size =>
      nmemb * size < 2 ^ 64 ∨ bufferSize < state.bufferUsed + u64 (nmemb * size)
  | .realloc _ _ | .free _ => True

end HookState

/-- The hook, with the blocks that `mm_alloc` has returned so far. -/
structure Bootstrap where
  hook : HookState
  given : List Block

namespace Bootstrap

def initial : Bootstrap := ⟨.initial, []⟩

section Runs

variable (buffer : ℕ)

def step (boot : Bootstrap) (move : WordMove) : Bootstrap where
  hook := hookStep buffer boot.hook move
  given :=
    if (boot.hook.bootRequest move).isSome then
      boot.given ++ boot.hook.newBlocks (hookStep buffer boot.hook move)
    else boot.given

/-- A call of `mm_alloc` ends the process, or returns one block of at least the size that was asked
for, which lies in the buffer and overlaps with none that was returned before. -/
def Sound (boot : Bootstrap) (move : WordMove) : Prop :=
  ∀ request ∈ boot.hook.bootRequest move,
    boot.hook.EndsProcess (hookStep buffer boot.hook move) ∨
    ∃ block, boot.hook.newBlocks (hookStep buffer boot.hook move) = [block] ∧
      request.bytes ≤ block.size ∧
      block.part.span ⊆ Set.Ico buffer (buffer + bufferSize) ∧
      ∀ earlier ∈ boot.given, Disjoint earlier.part.span block.part.span

def NoWrap (boot : Bootstrap) (move : WordMove) : Prop :=
  ∀ request ∈ boot.hook.bootRequest move, boot.hook.NoWrap request

/-- The blocks that have been returned make up the part of the buffer that is in use. -/
structure Tiled (boot : Bootstrap) : Prop where
  used : boot.hook.bufferUsed ≤ bufferSize
  tiles : Part.Tiles (boot.given.map Block.part) buffer (buffer + boot.hook.bufferUsed)

end Runs

end Bootstrap

/-! ## Moves without `mm_alloc` -/

section Frame

variable {buffer : ℕ} {state : HookState} {request : HookRequest} {answer : HookAnswer}

@[simp]
theorem bufferUsed_push (frame : HookFrame) :
    (state.push frame).bufferUsed = state.bufferUsed := rfl

@[simp]
theorem bufferUsed_give (block : Block) : (state.give block).bufferUsed = state.bufferUsed := rfl

@[simp]
theorem bufferUsed_takeBack : (state.takeBack request).bufferUsed = state.bufferUsed := by
  rw [HookState.takeBack]
  split <;> rfl

@[simp]
theorem bufferUsed_serve : (serve request answer state).bufferUsed = state.bufferUsed := by
  unfold serve pageMalloc realMalloc realRealloc realFree
  grind [bufferUsed_push, bufferUsed_give]

@[simp]
theorem bufferUsed_doInit : (doInit request answer state).bufferUsed = state.bufferUsed := by
  unfold doInit
  grind [bufferUsed_push, bufferUsed_serve]

@[simp]
theorem bufferUsed_goOn (frame : HookFrame) :
    (goOn frame answer state).bufferUsed = state.bufferUsed := by
  unfold goOn
  grind [bufferUsed_push, bufferUsed_give, bufferUsed_serve, bufferUsed_doInit]

theorem bufferUsed_enter (other : state.bootstraps request = false) :
    (enter buffer request answer state).bufferUsed = state.bufferUsed := by
  unfold enter
  unfold HookState.bootstraps at other
  grind [bufferUsed_push, bufferUsed_doInit]

/-- A move that does not call `mm_alloc` leaves the buffer alone. -/
theorem bufferUsed_hookStep {move : HookMove} (other : state.bootRequest move = none) :
    (hookStep buffer state move).bufferUsed = state.bufferUsed := by
  unfold hookStep
  split
  · rfl
  · rename_i running
    cases move with
    | call request memory answer =>
        have notBoot : state.bootstraps request = false := by
          simpa [HookState.bootRequest, not_not.mp running] using other
        rw [bufferUsed_enter, bufferUsed_takeBack]
        cases request <;> exact notBoot
    | resume memory answer =>
        dsimp only
        split
        · rfl
        · rw [bufferUsed_goOn]

end Frame

/-! ## A call of `mm_alloc` -/

section Calls

variable {buffer : ℕ} {state : HookState} {request : HookRequest}

/-- What a call of `mm_alloc` comes to. -/
inductive MmAlloc (buffer : ℕ) (state after : HookState) (request : HookRequest) : Prop where
  | ended (ends : state.EndsProcess after) (used : after.bufferUsed = state.bufferUsed)
      (noBlock : state.newBlocks after = []) (noWrap : state.NoWrap request)
  | returned (goesOn : ¬state.EndsProcess after)
      (block : state.newBlocks after = [⟨buffer + state.bufferUsed, request.bytes⟩])
      (noWrap : state.NoWrap request ↔ state.bufferUsed + request.bytes ≤ bufferSize)
      (used : state.NoWrap request → after.bufferUsed = state.bufferUsed + request.bytes)

theorem newBlocks_of_same {after : HookState} (same : after.live = state.live) :
    state.newBlocks after = [] := by
  rw [HookState.newBlocks, same, Nat.sub_self, List.take_zero]

theorem newBlocks_of_cons {after : HookState} {block : Block}
    (given : after.live = block :: state.live) : state.newBlocks after = [block] := by
  rw [HookState.newBlocks, given, List.length_cons, Nat.add_sub_cancel_left]
  rfl

theorem goesOn_of_same {after : HookState} (running : state.status = .running)
    (status : after.status = state.status) (stack : after.stack = state.stack) :
    ¬state.EndsProcess after := by
  rintro (crashed | exits)
  · rw [status, running] at crashed
    cases crashed
  · rw [stack] at exits
    exact List.cons_ne_self _ _ exits.symm

theorem mmAlloc_mmMalloc {size : ℕ} (running : state.status = .running) (word : size < 2 ^ 64)
    (inside : state.bufferUsed ≤ bufferSize) (memory : ByteMem) :
    MmAlloc buffer state (mmMalloc buffer size { state with memory := memory }) (.malloc size) := by
  unfold mmMalloc
  split
  · rename_i fits
    simp only [u64, bufferSize] at fits inside
    refine .returned (goesOn_of_same running rfl rfl) (newBlocks_of_cons rfl) ?_ fun noWrap =>
      Nat.mod_eq_of_lt noWrap
    simp only [HookState.NoWrap, HookRequest.bytes, bufferSize]
    omega
  · rename_i full
    simp only [u64, bufferSize] at full inside
    refine .ended (Or.inr rfl) rfl (newBlocks_of_same rfl) ?_
    simp only [HookState.NoWrap]
    omega

theorem mmAlloc_mmCalloc {nmemb size : ℕ} (running : state.status = .running)
    (memory : ByteMem) :
    MmAlloc buffer state (mmCalloc buffer nmemb size { state with memory := memory })
      (.calloc nmemb size) := by
  have count_eq : nmemb * size < 2 ^ 64 → u64 (nmemb * size) = nmemb * size := Nat.mod_eq_of_lt
  unfold mmCalloc
  dsimp only
  split
  · split
    · rename_i behind
      exact .ended (Or.inl rfl) rfl (newBlocks_of_same rfl) (Or.inr behind)
    · rename_i fits inBuffer
      have noWrap_iff : state.NoWrap (.calloc nmemb size) ↔ nmemb * size < 2 ^ 64 :=
        or_iff_left inBuffer
      refine .returned (goesOn_of_same running rfl rfl) (newBlocks_of_cons rfl) ?_ fun noWrap => ?_
      · rw [noWrap_iff]
        simp only [HookRequest.bytes, bufferSize] at inBuffer ⊢
        omega
      · have count := count_eq (noWrap_iff.mp noWrap)
        rw [count, bufferSize] at inBuffer
        show u64 (state.bufferUsed + u64 (nmemb * size)) = state.bufferUsed + nmemb * size
        rw [count]
        exact Nat.mod_eq_of_lt (by omega)
  · rename_i full
    have le := Nat.mod_le (state.bufferUsed + u64 (nmemb * size)) (2 ^ 64)
    exact .ended (Or.inr rfl) rfl (newBlocks_of_same rfl) (Or.inr (lt_of_not_ge fun fits =>
      full (le.trans fits)))

theorem enter_malloc {size : ℕ} {answer : HookAnswer} (boots : state.bootstraps (.malloc size)) :
    enter buffer (.malloc size) answer state = mmMalloc buffer size state := by
  simp only [HookState.bootstraps, Bool.and_eq_true, Bool.not_eq_true'] at boots
  simp [enter, boots]

theorem enter_calloc {nmemb size : ℕ} {answer : HookAnswer}
    (boots : state.bootstraps (.calloc nmemb size)) :
    enter buffer (.calloc nmemb size) answer state = mmCalloc buffer nmemb size state := by
  simp only [HookState.bootstraps, Bool.and_eq_true, Bool.not_eq_true'] at boots
  simp [enter, boots]

/-- By the request that is passed on: `mm_alloc` is called by `malloc` and by `calloc`. -/
theorem mmAlloc_hookStep {move : HookMove} (words : move.Words)
    (inside : state.bufferUsed ≤ bufferSize) (boots : state.bootRequest move = some request) :
    MmAlloc buffer state (hookStep buffer state move) request := by
  cases move with
  | resume memory answer => cases boots
  | call called memory answer =>
      rw [HookState.bootRequest, Option.ite_none_right_eq_some] at boots
      rcases boots with ⟨⟨running, boots⟩, same⟩
      obtain rfl := Option.some.inj same
      cases called with
      | malloc size =>
          have step : hookStep buffer state (.call (.malloc size) memory answer) =
              mmMalloc buffer size { state with memory := memory } :=
            (if_neg (not_not.mpr running)).trans (enter_malloc boots)
          rw [step]
          exact mmAlloc_mmMalloc running words inside memory
      | calloc nmemb size =>
          have step : hookStep buffer state (.call (.calloc nmemb size) memory answer) =
              mmCalloc buffer nmemb size { state with memory := memory } :=
            (if_neg (not_not.mpr running)).trans (enter_calloc boots)
          rw [step]
          exact mmAlloc_mmCalloc running memory
      | realloc old size => cases boots
      | free block => cases boots

end Calls

/-! ## Runs -/

namespace Bootstrap

variable {buffer : ℕ} {boot : Bootstrap} {move : WordMove}

theorem tiled_initial : initial.Tiled buffer where
  used := by decide
  tiles := rfl

theorem given_step_of_some {request : HookRequest}
    (boots : boot.hook.bootRequest move = some request) :
    (boot.step buffer move).given =
      boot.given ++ boot.hook.newBlocks (hookStep buffer boot.hook move) := by
  rw [step, boots]
  rfl

/-- A call is sound exactly if no size wraps around. -/
theorem sound_iff_noWrap (tiled : boot.Tiled buffer) (move : WordMove) :
    boot.Sound buffer move ↔ boot.NoWrap move := by
  refine forall₂_congr fun request boots => ?_
  cases mmAlloc_hookStep move.2 tiled.used boots with
  | ended ends used noBlock noWrap => exact iff_of_true (Or.inl ends) noWrap
  | returned goesOn block noWrap used =>
      rw [noWrap]
      constructor
      · rintro (ends | ⟨other, isNew, -, inside, -⟩)
        · exact absurd ends goesOn
        · obtain rfl := List.singleton_inj.mp (block.symm.trans isNew)
          have stop := Part.stop_le_of_subset inside (Nat.add_le_add_left tiled.used buffer)
          simp only [Block.part, Part.stop] at stop
          omega
      · intro fits
        refine Or.inr ⟨_, block, le_rfl, Set.Ico_subset_Ico ?_ ?_, ?_⟩
        · exact Nat.le_add_right _ _
        · show buffer + boot.hook.bufferUsed + request.bytes ≤ buffer + bufferSize
          omega
        · intro earlier earlier_mem
          exact tiled.tiles.disjoint_behind (List.mem_map_of_mem earlier_mem) le_rfl

/-- A call without a wrap keeps the tiling. -/
theorem Tiled.step (tiled : boot.Tiled buffer) (noWrap : boot.NoWrap move) :
    (boot.step buffer move).Tiled buffer := by
  have hook : (boot.step buffer move).hook = hookStep buffer boot.hook move := rfl
  cases boots : boot.hook.bootRequest move with
  | none =>
      have used : (boot.step buffer move).hook.bufferUsed = boot.hook.bufferUsed :=
        bufferUsed_hookStep boots
      have given : (boot.step buffer move).given = boot.given := by
        rw [Bootstrap.step, boots]
        rfl
      exact ⟨by rw [used]; exact tiled.used, by rw [used, given]; exact tiled.tiles⟩
  | some request =>
      have given := @given_step_of_some buffer boot move request boots
      have outcome := @mmAlloc_hookStep buffer boot.hook request move move.2 tiled.used boots
      rw [← hook] at given outcome
      cases outcome with
      | ended ends used noBlock =>
          rw [noBlock, List.append_nil] at given
          exact ⟨by rw [used]; exact tiled.used, by rw [used, given]; exact tiled.tiles⟩
      | returned goesOn block fits used =>
          have noWrap := noWrap request boots
          have used := used noWrap
          rw [block] at given
          refine ⟨by rw [used]; exact fits.mp noWrap, ?_⟩
          rw [used, given, List.map_append, List.map_singleton, ← Nat.add_assoc]
          exact tiled.tiles.concat

/--
Every call of `mm_alloc` in a run of the hook ends the process, or returns a block of
the requested size in the buffer and apart from the earlier blocks, exactly if no size
wraps around in the run.
-/
theorem bootstrap_sound_iff (buffer : ℕ) (moves : List WordMove) :
    Runs.Throughout (step buffer) (Sound buffer) initial moves ↔
      Runs.Throughout (step buffer) NoWrap initial moves := by
  refine Runs.throughout_iff_of_simulation
    (fun boot shadow => boot = shadow ∧ boot.Tiled buffer) ?_ ?_ ⟨rfl, tiled_initial⟩ moves
  · rintro boot _ move ⟨rfl, tiled⟩
    exact sound_iff_noWrap tiled move
  · rintro boot _ move ⟨rfl, tiled⟩ noWrap
    exact ⟨rfl, tiled.step noWrap⟩

/-- Calls that do not need an answer of the C library or the kernel. -/
def mallocCall (size : UInt64) : WordMove :=
  ⟨.call (.malloc size.toNat) .zero ⟨false, none, false, none, .zero⟩, size.toNat_lt⟩

def callocCall (nmemb size : UInt64) : WordMove :=
  ⟨.call (.calloc nmemb.toNat size.toNat) .zero ⟨false, none, false, none, .zero⟩,
    nmemb.toNat_lt, size.toNat_lt⟩

/-- The first call looks the symbol up, and the others are made by `dlsym`. -/
def wrappedMallocs : List WordMove :=
  [mallocCall 8, mallocCall 16, mallocCall 0xfffffffffffffff8, mallocCall 8]

def wrappedCallocs : List WordMove := [callocCall 1 8, callocCall 0x100000000 0x100000000]

/-- A block of nearly `2 ^ 64` bytes is returned, and the next block overlaps with the first; a
block of `2 ^ 64` bytes is returned where none was taken. -/
theorem wraps_around :
    (Runs.after (step 0x500000) initial wrappedMallocs).given =
      [⟨0x500000, 16⟩, ⟨0x500010, 2 ^ 64 - 8⟩, ⟨0x500008, 8⟩] ∧
    ¬Runs.Throughout (step 0x500000) (Sound 0x500000) initial wrappedMallocs ∧
    (Runs.after (step 0x500000) initial wrappedCallocs).given = [⟨0x500000, 2 ^ 64⟩] ∧
    ¬Runs.Throughout (step 0x500000) (Sound 0x500000) initial wrappedCallocs := by
  refine ⟨by decide, ?_, by decide, ?_⟩
  · rintro ⟨-, -, sound, -⟩
    rcases sound (.malloc (2 ^ 64 - 8)) (by decide)
      with (ends | ends) | ⟨block, isNew, -, inside, -⟩
    · cases ends
    · cases ends
    · have same : [⟨0x500010, 2 ^ 64 - 8⟩] = [block] := Eq.trans (by decide) isNew
      obtain rfl := List.singleton_inj.mp same
      exact absurd (Part.stop_le_of_subset inside (by decide)) (by decide)
  · rintro ⟨-, sound, -⟩
    rcases sound (.calloc (2 ^ 32) (2 ^ 32)) (by decide) with
      (ends | ends) | ⟨block, isNew, -, inside, -⟩
    · cases ends
    · cases ends
    · have same : [⟨0x500000, 2 ^ 64⟩] = [block] := Eq.trans (by decide) isNew
      obtain rfl := List.singleton_inj.mp same
      exact absurd (Part.stop_le_of_subset inside (by decide)) (by decide)

end Bootstrap

end Acai
