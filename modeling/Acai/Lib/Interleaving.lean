import Acai.Lib.Program
import Mathlib.Logic.Function.Basic

/-!
# Interleavings of programs on a shared page

Any number of programs work on one page, and a schedule says whose turn it is. A
program that finds the spinlock taken waits, so every schedule respects the lock.

A program is isolated when each of its accesses finds the page and the peer as
its own last access has left them. Programs that make all their accesses in one
critical section isolate each other. A program that does not take the lock is
isolated from the others, and they from it, as long as its accesses are not mixed
with theirs (`Pool.Sound.isolated`).
-/

namespace Acai

namespace Prog

variable {α β : Type}

def Accesses : Prog α → Prop
  | store _ _ _ | load _ _ _ | ring _ => True
  | _ => False

def Finished : Prog α → Prop
  | ret _ | diverge => True
  | lock next | unlock next => next.Finished
  | count next => ∀ value, (next value).Finished
  | store _ _ _ | load _ _ _ | ring _ => False

def LockFree : Prog α → Prop
  | ret _ | diverge => True
  | lock _ | unlock _ => False
  | count next => ∀ value, (next value).LockFree
  | store _ _ next | ring next => next.LockFree
  | load _ _ next => ∀ bytes, (next bytes).LockFree

inductive Phase where
  | before
  | inside
  | after

/-- All accesses of the program lie in one critical section, which is still to come, has begun or
is over. A second attempt to take the lock inside the section never returns. -/
def Guarded : Phase → Prog α → Prop
  | _, ret _ => True
  | _, diverge => True
  | .before, lock next => next.Guarded .inside
  | .inside, lock _ => True
  | .inside, unlock next => next.Guarded .after
  | .inside, count next => ∀ value, (next value).Guarded .inside
  | .inside, store _ _ next => next.Guarded .inside
  | .inside, ring next => next.Guarded .inside
  | .inside, load _ _ next => ∀ bytes, (next bytes).Guarded .inside
  | _, _ => False

/-! ## The shape of composed programs -/

theorem not_lockFree_lock (next : Prog α) : ¬(lock next).LockFree := id

theorem not_lockFree_unlock (next : Prog α) : ¬(unlock next).LockFree := id

theorem LockFree.of_count {next : ℕ → Prog α} (lockFree : (count next).LockFree) (value : ℕ) :
    (next value).LockFree := lockFree value

theorem LockFree.of_store {offset : ℕ} {bytes : List UInt8} {next : Prog α}
    (lockFree : (store offset bytes next).LockFree) : next.LockFree := lockFree

theorem LockFree.of_load {offset size : ℕ} {next : List UInt8 → Prog α}
    (lockFree : (load offset size next).LockFree) (bytes : List UInt8) :
    (next bytes).LockFree := lockFree bytes

theorem LockFree.of_ring {next : Prog α} (lockFree : (ring next).LockFree) : next.LockFree :=
  lockFree

@[simp]
theorem lockFree_pure (value : α) : (pure value : Prog α).LockFree := trivial

@[simp]
theorem lockFree_diverge : (diverge : Prog α).LockFree := trivial

@[simp]
theorem lockFree_increment : increment.LockFree := fun _ => trivial

@[simp]
theorem lockFree_storeBytes (offset : ℕ) (bytes : List UInt8) :
    (storeBytes offset bytes).LockFree := trivial

@[simp]
theorem lockFree_storeField (field : Field) (value : ℕ) : (storeField field value).LockFree :=
  trivial

@[simp]
theorem lockFree_storeInt (field : Field) (value : ℤ) : (storeInt field value).LockFree := trivial

@[simp]
theorem lockFree_loadBytes (offset size : ℕ) : (loadBytes offset size).LockFree := fun _ => trivial

@[simp]
theorem lockFree_loadField (field : Field) : (loadField field).LockFree := fun _ => trivial

@[simp]
theorem lockFree_loadInt (field : Field) : (loadInt field).LockFree := fun _ => trivial

@[simp]
theorem lockFree_doorbell : doorbell.LockFree := trivial

theorem LockFree.bind {program : Prog α} {next : α → Prog β} (first : program.LockFree)
    (rest : ∀ value, (next value).LockFree) : (program >>= next).LockFree := by
  rw [bind_def]
  induction program with
  | ret value => exact rest value
  | lock _ => exact first.elim
  | unlock _ => exact first.elim
  | count _ ih => exact fun value => ih value (first value)
  | store _ _ _ ih => exact ih first
  | load _ _ _ ih => exact fun bytes => ih bytes (first bytes)
  | ring _ ih => exact ih first
  | diverge => trivial

@[simp]
theorem lockFree_strlen (offset limit : ℕ) : (strlen offset limit).LockFree := by
  induction limit generalizing offset with
  | zero => exact lockFree_pure 0
  | succ limit ih =>
      refine LockFree.bind (lockFree_loadBytes _ _) fun byte => ?_
      split
      · exact lockFree_pure 0
      · exact LockFree.bind (ih (offset + 1)) fun _ => lockFree_pure _

theorem LockFree.guarded_bind {program : Prog α} {next : α → Prog β} (first : program.LockFree)
    (rest : ∀ value, (next value).Guarded .inside) : (program >>= next).Guarded .inside := by
  rw [bind_def]
  induction program with
  | ret value => exact rest value
  | lock _ => exact first.elim
  | unlock _ => exact first.elim
  | count _ ih => exact fun value => ih value (first value)
  | store _ _ _ ih => exact ih first
  | load _ _ _ ih => exact fun bytes => ih bytes (first bytes)
  | ring _ ih => exact ih first
  | diverge => trivial

theorem Guarded.map {program : Prog α} {phase : Phase} (f : α → β)
    (guarded : program.Guarded phase) : (f <$> program).Guarded phase := by
  rw [map_def, bind_def]
  induction program generalizing phase with
  | ret value => cases phase <;> trivial
  | lock next ih =>
      cases phase with
      | before => exact @ih .inside guarded
      | inside => trivial
      | after => exact guarded
  | unlock next ih =>
      cases phase with
      | before => exact guarded
      | inside => exact @ih .after guarded
      | after => exact guarded
  | count next ih =>
      cases phase with
      | before => exact guarded
      | inside => exact fun value => @ih value .inside (guarded value)
      | after => exact guarded
  | store offset bytes next ih =>
      cases phase with
      | before => exact guarded
      | inside => exact @ih .inside guarded
      | after => exact guarded
  | load offset size next ih =>
      cases phase with
      | before => exact guarded
      | inside => exact fun bytes => @ih bytes .inside (guarded bytes)
      | after => exact guarded
  | ring next ih =>
      cases phase with
      | before => exact guarded
      | inside => exact @ih .inside guarded
      | after => exact guarded
  | diverge => cases phase <;> trivial

theorem guarded_pure (phase : Phase) (value : α) : (pure value : Prog α).Guarded phase := by
  cases phase <;> trivial

theorem guarded_acquire {next : Unit → Prog α} (inside : (next ()).Guarded .inside) :
    (acquire >>= next).Guarded .before := inside

theorem guarded_acquire_inside (next : Unit → Prog α) : (acquire >>= next).Guarded .inside :=
  trivial

theorem guarded_release (value : α) : (release >>= fun _ => pure value).Guarded .inside := trivial

theorem Guarded.finished {program : Prog α} (behind : program.Guarded .after) :
    program.Finished := by
  cases program with
  | ret value => trivial
  | diverge => trivial
  | lock _ | unlock _ | count _ | store _ _ _ | load _ _ _ | ring _ => exact behind.elim

theorem Guarded.inside_of_accesses {program : Prog α} {phase : Phase}
    (guarded : program.Guarded phase) (accesses : program.Accesses) : phase = .inside := by
  cases program with
  | store _ _ _ | load _ _ _ | ring _ => cases phase <;> first | rfl | exact guarded.elim
  | ret _ | lock _ | unlock _ | count _ | diverge => exact accesses.elim

theorem not_finished_of_accesses {program : Prog α} (accesses : program.Accesses) :
    ¬program.Finished := by
  cases program with
  | store _ _ _ | load _ _ _ | ring _ => exact id
  | ret _ | lock _ | unlock _ | count _ | diverge => exact accesses.elim

/-! ## Requests -/

/--
Every page that the program rings with satisfies `request`, and `post` holds when
it returns. Nothing is assumed of the page when the lock has been taken and when
the peer has answered.
-/
def Requests (request : ByteMem → Prop) (post : α → ByteMem → Prop) : Prog α → ByteMem → Prop
  | ret value, page => post value page
  | lock next, _ => ∀ page, next.Requests request post page
  | unlock next, page => next.Requests request post page
  | count next, page => ∀ value, (next value).Requests request post page
  | store offset bytes next, page => next.Requests request post (page.writeBytes offset bytes)
  | load offset size next, page =>
      (next (page.readBytes offset size)).Requests request post page
  | ring next, page => request page ∧ ∀ answered, next.Requests request post answered
  | diverge, _ => True

section

variable {request : ByteMem → Prop} {post : α → ByteMem → Prop}

theorem requests_bind {post : β → ByteMem → Prop} (program : Prog α) (next : α → Prog β)
    (page : ByteMem) :
    (program >>= next).Requests request post page ↔
      program.Requests request (fun value page' => (next value).Requests request post page')
        page := by
  rw [bind_def]
  induction program generalizing page with
  | ret value => rfl
  | lock rest ih => exact forall_congr' ih
  | unlock rest ih => exact ih page
  | count rest ih => exact forall_congr' fun value => ih value page
  | store offset bytes rest ih => exact ih _
  | load offset size rest ih => exact ih _ _
  | ring rest ih => exact and_congr_right' (forall_congr' ih)
  | diverge => rfl

theorem Requests.imp {post' : α → ByteMem → Prop} {program : Prog α} {page : ByteMem}
    (holds : program.Requests request post page)
    (weaker : ∀ value page, post value page → post' value page) :
    program.Requests request post' page := by
  induction program generalizing page with
  | ret value => exact weaker value page holds
  | lock rest ih => exact fun page' => ih (holds page')
  | unlock rest ih => exact ih holds
  | count rest ih => exact fun value => ih value (holds value)
  | store offset bytes rest ih => exact ih holds
  | load offset size rest ih => exact ih _ holds
  | ring rest ih => exact ⟨holds.1, fun answered => ih (holds.2 answered)⟩
  | diverge => trivial

@[simp]
theorem requests_pure (value : α) (page : ByteMem) :
    (pure value : Prog α).Requests request post page ↔ post value page := Iff.rfl

@[simp]
theorem requests_diverge (page : ByteMem) : (diverge : Prog α).Requests request post page := trivial

@[simp]
theorem requests_acquire {post : Unit → ByteMem → Prop} (page : ByteMem) :
    acquire.Requests request post page ↔ ∀ page', post () page' := Iff.rfl

@[simp]
theorem requests_release {post : Unit → ByteMem → Prop} (page : ByteMem) :
    release.Requests request post page ↔ post () page := Iff.rfl

@[simp]
theorem requests_increment {post : ℕ → ByteMem → Prop} (page : ByteMem) :
    increment.Requests request post page ↔ ∀ value, post value page := Iff.rfl

@[simp]
theorem requests_storeBytes {post : Unit → ByteMem → Prop} (offset : ℕ) (bytes : List UInt8)
    (page : ByteMem) :
    (storeBytes offset bytes).Requests request post page ↔ post () (page.writeBytes offset bytes) :=
  Iff.rfl

@[simp]
theorem requests_storeField {post : Unit → ByteMem → Prop} (field : Field) (value : ℕ)
    (page : ByteMem) :
    (storeField field value).Requests request post page ↔ post () (page.set field value) := Iff.rfl

@[simp]
theorem requests_storeInt {post : Unit → ByteMem → Prop} (field : Field) (value : ℤ)
    (page : ByteMem) :
    (storeInt field value).Requests request post page ↔ post () (page.setInt field value) := Iff.rfl

@[simp]
theorem requests_loadBytes {post : List UInt8 → ByteMem → Prop} (offset size : ℕ)
    (page : ByteMem) :
    (loadBytes offset size).Requests request post page ↔ post (page.readBytes offset size) page :=
  Iff.rfl

@[simp]
theorem requests_strlen {post : ℕ → ByteMem → Prop} (offset limit : ℕ) (page : ByteMem) :
    (strlen offset limit).Requests request post page ↔
      post ((page.readBytes offset limit).takeWhile (· ≠ 0)).length page := by
  induction limit generalizing offset post with
  | zero => rfl
  | succ limit ih =>
      have byte : page.readBytes offset 1 = [page offset] := rfl
      rw [strlen, requests_bind, requests_loadBytes, byte, ByteMem.readBytes_succ]
      by_cases null : page offset = 0
      · simp [null]
      · rw [if_neg (by simpa using null), map_def, requests_bind, ih]
        simp [null]

@[simp]
theorem requests_loadField {post : ℕ → ByteMem → Prop} (field : Field) (page : ByteMem) :
    (loadField field).Requests request post page ↔ post (page.get field) page := Iff.rfl

@[simp]
theorem requests_loadInt {post : ℤ → ByteMem → Prop} (field : Field) (page : ByteMem) :
    (loadInt field).Requests request post page ↔ post (page.getInt field) page := Iff.rfl

@[simp]
theorem requests_doorbell {post : Unit → ByteMem → Prop} (page : ByteMem) :
    doorbell.Requests request post page ↔ request page ∧ ∀ answered, post () answered := Iff.rfl

end

end Prog

/-- Programs that share a page, a spinlock, a counter and a peer. -/
structure Pool (α σ : Type) where
  page : ByteMem
  counter : ℕ
  peer : σ
  holder : Option ℕ
  threads : ℕ → Prog α
  /-- The page and the peer as the last access of each thread has left them. -/
  left : ℕ → Option (ByteMem × σ)

namespace Pool

variable {α σ : Type}

def advance (pool : Pool α σ) (thread : ℕ) (next : Prog α) : Pool α σ :=
  { pool with threads := Function.update pool.threads thread next }

def access (pool : Pool α σ) (thread : ℕ) (next : Prog α) (page : ByteMem) (peer : σ) :
    Pool α σ :=
  { pool.advance thread next with
    page := page
    peer := peer
    left := Function.update pool.left thread (some (page, peer)) }

/-- One step of a thread. A thread that waits for the lock or has ended does nothing. -/
def step (answer : σ → ByteMem → σ × ByteMem) (pool : Pool α σ) (thread : ℕ) : Pool α σ :=
  match pool.threads thread with
  | .ret _ | .diverge => pool
  | .lock next =>
      if pool.holder = none then { pool.advance thread next with holder := some thread } else pool
  | .unlock next => { pool.advance thread next with holder := none }
  | .count next =>
      { pool.advance thread (next (pool.counter + 1)) with counter := pool.counter + 1 }
  | .store offset bytes next =>
      pool.access thread next (pool.page.writeBytes offset bytes) pool.peer
  | .load offset size next =>
      pool.access thread (next (pool.page.readBytes offset size)) pool.page pool.peer
  | .ring next =>
      pool.access thread next (answer pool.peer pool.page).2 (answer pool.peer pool.page).1

def run (answer : σ → ByteMem → σ × ByteMem) (pool : Pool α σ) (schedule : List ℕ) : Pool α σ :=
  schedule.foldl (step answer) pool

/-- The thread has begun to access the page and has not finished. -/
def Midway (pool : Pool α σ) (thread : ℕ) : Prop :=
  pool.left thread ≠ none ∧ ¬(pool.threads thread).Finished

def Undisturbed (pool : Pool α σ) (thread : ℕ) : Prop :=
  (pool.threads thread).Accesses → pool.left thread = none ∨
    pool.left thread = some (pool.page, pool.peer)

/-- Every access that the schedule makes is undisturbed. -/
def Isolated (answer : σ → ByteMem → σ × ByteMem) : Pool α σ → List ℕ → Prop
  | _, [] => True
  | pool, thread :: schedule =>
      pool.Undisturbed thread ∧ (pool.step answer thread).Isolated answer schedule

/-- Every page that a thread rings with in the schedule is a request of this thread. -/
def Serves (answer : σ → ByteMem → σ × ByteMem) (request : ℕ → ByteMem → Prop) :
    Pool α σ → List ℕ → Prop
  | _, [] => True
  | pool, thread :: schedule =>
      (∀ next, pool.threads thread = .ring next → request thread pool.page) ∧
        (pool.step answer thread).Serves answer request schedule

/-- An access of a thread without the lock is not mixed with the accesses of another thread: it
is made while no other thread is midway, and no other thread makes one while this one is. -/
def Apart (free : ℕ → Prop) (pool : Pool α σ) (thread : ℕ) : Prop :=
  (pool.threads thread).Accesses → ∀ other, other ≠ thread → free thread ∨ free other →
    ¬pool.Midway other

def ApartThroughout (free : ℕ → Prop) (answer : σ → ByteMem → σ × ByteMem) :
    Pool α σ → List ℕ → Prop
  | _, [] => True
  | pool, thread :: schedule =>
      pool.Apart free thread ∧ (pool.step answer thread).ApartThroughout free answer schedule

/-- A thread outside `free` is guarded, a thread in `free` ignores the lock, and what a thread
midway has left is still there. -/
structure SoundAt (free : ℕ → Prop) (pool : Pool α σ) (thread : ℕ) : Prop where
  guarded : ¬free thread → ∃ phase, (pool.threads thread).Guarded phase ∧
    (phase = .inside ↔ pool.holder = some thread) ∧ (phase = .before → pool.left thread = none)
  unguarded : free thread → (pool.threads thread).LockFree ∧ pool.holder ≠ some thread
  untouched : pool.Midway thread → pool.left thread = some (pool.page, pool.peer)

def Sound (free : ℕ → Prop) (pool : Pool α σ) : Prop := ∀ thread, pool.SoundAt free thread

/-! ## One step -/

section

variable {answer : σ → ByteMem → σ × ByteMem} {free : ℕ → Prop} {pool : Pool α σ} {thread : ℕ}

/-- Everything that a step can do. -/
inductive StepTo (pool : Pool α σ) (thread : ℕ) : Pool α σ → Prop
  | idle : StepTo pool thread pool
  | lock {next : Prog α} (here : pool.threads thread = .lock next)
      (available : pool.holder = none) :
      StepTo pool thread { pool.advance thread next with holder := some thread }
  | unlock {next : Prog α} (here : pool.threads thread = .unlock next) :
      StepTo pool thread { pool.advance thread next with holder := none }
  | count {next : ℕ → Prog α} (here : pool.threads thread = .count next) :
      StepTo pool thread
        { pool.advance thread (next (pool.counter + 1)) with counter := pool.counter + 1 }
  | access {next : Prog α} {page : ByteMem} {peer : σ}
      (accesses : (pool.threads thread).Accesses)
      (lockFree : (pool.threads thread).LockFree → next.LockFree)
      (guarded : (pool.threads thread).Guarded .inside → next.Guarded .inside) :
      StepTo pool thread (pool.access thread next page peer)

theorem step_stepTo (answer : σ → ByteMem → σ × ByteMem) (pool : Pool α σ) (thread : ℕ) :
    pool.StepTo thread (pool.step answer thread) := by
  unfold step
  split
  · exact .idle
  · exact .idle
  · rename_i next here
    split
    · rename_i available
      exact .lock here available
    · exact .idle
  · rename_i next here
    exact .unlock here
  · rename_i next here
    exact .count here
  · rename_i offset bytes next here
    refine .access ?_ ?_ ?_ <;> rw [here]
    · trivial
    · exact id
    · exact id
  · rename_i offset size next here
    refine .access ?_ ?_ ?_ <;> rw [here]
    · trivial
    · exact fun lockFree => lockFree _
    · exact fun guarded => guarded _
  · rename_i next here
    refine .access ?_ ?_ ?_ <;> rw [here]
    · trivial
    · exact id
    · exact id

/-- A thread that accesses the page while the others are kept apart is the only one midway. -/
theorem Sound.not_midway (sound : pool.Sound free) (apart : pool.Apart free thread)
    (accesses : (pool.threads thread).Accesses) {other : ℕ} (different : other ≠ thread) :
    ¬pool.Midway other := by
  by_cases unguarded : free thread ∨ free other
  · exact apart accesses other different unguarded
  rw [not_or] at unguarded
  rcases (sound thread).guarded unguarded.1 with ⟨phase, guarded, holds, -⟩
  have held : pool.holder = some thread := holds.mp (guarded.inside_of_accesses accesses)
  rcases (sound other).guarded unguarded.2 with ⟨otherPhase, otherGuarded, otherHolds, untouched⟩
  rintro ⟨begun, unfinished⟩
  cases otherPhase with
  | before => exact begun (untouched rfl)
  | inside =>
      have otherHeld := otherHolds.mp rfl
      rw [held] at otherHeld
      exact different (Option.some.inj otherHeld).symm
  | after => exact unfinished otherGuarded.finished

/-- A step of one thread concerns another only through the lock and, if the other is midway,
through the page and the peer. -/
theorem SoundAt.frame {pool' : Pool α σ} {other : ℕ} (sound : pool.SoundAt free other)
    (threads : pool'.threads other = pool.threads other)
    (left : pool'.left other = pool.left other)
    (holder : pool'.holder = some other ↔ pool.holder = some other)
    (kept : pool.Midway other → pool'.page = pool.page ∧ pool'.peer = pool.peer) :
    pool'.SoundAt free other := by
  refine ⟨?_, ?_, ?_⟩
  · intro notFree
    rw [threads, left, holder]
    exact sound.guarded notFree
  · intro unguarded
    rw [threads, ne_eq, holder]
    exact sound.unguarded unguarded
  · intro midway
    have midway' : pool.Midway other := by
      rw [Midway, ← threads, ← left]
      exact midway
    rw [left, (kept midway').1, (kept midway').2]
    exact sound.untouched midway'

theorem Sound.lock (sound : pool.Sound free) {next : Prog α}
    (here : pool.threads thread = .lock next) (available : pool.holder = none) :
    { pool.advance thread next with holder := some thread }.Sound free := by
  intro other
  by_cases same : other = thread
  · subst same
    have notFree : ¬free other := by
      intro unguarded
      have lockFree := ((sound other).unguarded unguarded).1
      rw [here] at lockFree
      exact lockFree
    rcases (sound other).guarded notFree with ⟨phase, guarded, holds, untouched⟩
    rw [here] at guarded
    cases phase with
    | before =>
        have entered : next.Guarded .inside := guarded
        refine ⟨fun _ => ⟨.inside, ?_, by simp, by simp⟩,
          fun unguarded => absurd unguarded notFree, ?_⟩
        · simpa [advance] using entered
        · intro midway
          exact absurd (untouched rfl) midway.1
    | inside =>
        have held := holds.mp rfl
        rw [available] at held
        cases held
    | after => exact guarded.elim
  · apply (sound other).frame
    · exact Function.update_of_ne same ..
    · rfl
    · simp [available, Ne.symm same]
    · exact fun _ => ⟨rfl, rfl⟩

theorem Sound.unlock (sound : pool.Sound free) {next : Prog α}
    (here : pool.threads thread = .unlock next) :
    { pool.advance thread next with holder := none }.Sound free := by
  have notFree : ¬free thread := by
    intro unguarded
    have lockFree := ((sound thread).unguarded unguarded).1
    rw [here] at lockFree
    exact lockFree
  rcases (sound thread).guarded notFree with ⟨phase, guarded, holds, untouched⟩
  rw [here] at guarded
  cases phase with
  | before => exact guarded.elim
  | after => exact guarded.elim
  | inside =>
      have behind : next.Guarded .after := guarded
      intro other
      by_cases same : other = thread
      · subst same
        refine ⟨fun _ => ⟨.after, ?_, by simp, by simp⟩,
          fun unguarded => absurd unguarded notFree, ?_⟩
        · simpa [advance] using behind
        · intro midway
          refine absurd ?_ midway.2
          simpa [advance] using behind.finished
      · apply (sound other).frame
        · exact Function.update_of_ne same ..
        · rfl
        · simp [holds.mp rfl, Ne.symm same]
        · exact fun _ => ⟨rfl, rfl⟩

theorem Sound.count (sound : pool.Sound free) {next : ℕ → Prog α} {value : ℕ}
    (here : pool.threads thread = .count next) :
    { pool.advance thread (next value) with counter := value }.Sound free := by
  intro other
  by_cases same : other = thread
  · subst same
    refine ⟨?_, ?_, ?_⟩
    · intro notFree
      rcases (sound other).guarded notFree with ⟨phase, guarded, holds, untouched⟩
      rw [here] at guarded
      cases phase with
      | before => exact guarded.elim
      | inside =>
          refine ⟨.inside, ?_, holds, untouched⟩
          simpa [advance] using guarded value
      | after => exact guarded.elim
    · intro unguarded
      rcases (sound other).unguarded unguarded with ⟨lockFree, notHeld⟩
      rw [here] at lockFree
      refine ⟨?_, notHeld⟩
      simpa [advance] using lockFree value
    · rintro ⟨begun, unfinished⟩
      apply (sound other).untouched
      refine ⟨begun, ?_⟩
      rw [here]
      intro finished
      apply unfinished
      simpa [advance] using finished value
  · apply (sound other).frame
    · exact Function.update_of_ne same ..
    · rfl
    · rfl
    · exact fun _ => ⟨rfl, rfl⟩

theorem Sound.access (sound : pool.Sound free) (apart : pool.Apart free thread) {next : Prog α}
    {page : ByteMem} {peer : σ} (accesses : (pool.threads thread).Accesses)
    (lockFree : (pool.threads thread).LockFree → next.LockFree)
    (guarded : (pool.threads thread).Guarded .inside → next.Guarded .inside) :
    (pool.access thread next page peer).Sound free := by
  intro other
  by_cases same : other = thread
  · subst same
    refine ⟨?_, ?_, ?_⟩
    · intro notFree
      rcases (sound other).guarded notFree with ⟨phase, guardedHere, holds, -⟩
      have inside := guardedHere.inside_of_accesses accesses
      subst inside
      refine ⟨.inside, ?_, holds, by simp⟩
      simpa [Pool.access, advance] using guarded guardedHere
    · intro unguarded
      rcases (sound other).unguarded unguarded with ⟨lockFreeHere, notHeld⟩
      refine ⟨?_, notHeld⟩
      simpa [Pool.access, advance] using lockFree lockFreeHere
    · intro _
      exact Function.update_self ..
  · apply (sound other).frame
    · exact Function.update_of_ne same ..
    · exact Function.update_of_ne same ..
    · rfl
    · intro midway
      exact absurd midway (sound.not_midway apart accesses same)

theorem Sound.step (sound : pool.Sound free) (apart : pool.Apart free thread) :
    (pool.step answer thread).Sound free := by
  have stepTo := step_stepTo answer pool thread
  revert stepTo
  generalize pool.step answer thread = pool'
  intro stepTo
  cases stepTo with
  | idle => exact sound
  | lock here available => exact sound.lock here available
  | unlock here => exact sound.unlock here
  | count here => exact sound.count here
  | access accesses lockFree guarded => exact sound.access apart accesses lockFree guarded

/-! ## Whole schedules -/

theorem Sound.undisturbed (sound : pool.Sound free) : pool.Undisturbed thread := by
  intro accesses
  by_cases begun : pool.left thread = none
  · left
    exact begun
  · right
    exact (sound thread).untouched ⟨begun, Prog.not_finished_of_accesses accesses⟩

/-- A schedule in which the threads without the lock are kept apart isolates all threads. -/
theorem Sound.isolated {schedule : List ℕ} (sound : pool.Sound free)
    (apart : pool.ApartThroughout free answer schedule) : pool.Isolated answer schedule := by
  induction schedule generalizing pool with
  | nil => trivial
  | cons thread schedule ih => exact ⟨sound.undisturbed, ih (sound.step apart.1) apart.2⟩

theorem step_left_of_ne {other : ℕ} (different : other ≠ thread) :
    (pool.step answer thread).left other = pool.left other := by
  have stepTo := step_stepTo answer pool thread
  revert stepTo
  generalize pool.step answer thread = pool'
  intro stepTo
  cases stepTo with
  | idle => rfl
  | lock here available => rfl
  | unlock here => rfl
  | count here => rfl
  | access accesses lockFree guarded => exact Function.update_of_ne different ..

theorem step_threads_of_ne {other : ℕ} (different : other ≠ thread) :
    (pool.step answer thread).threads other = pool.threads other := by
  have stepTo := step_stepTo answer pool thread
  revert stepTo
  generalize pool.step answer thread = pool'
  intro stepTo
  cases stepTo with
  | idle => rfl
  | lock here available => exact Function.update_of_ne different ..
  | unlock here => exact Function.update_of_ne different ..
  | count here => exact Function.update_of_ne different ..
  | access accesses lockFree guarded => exact Function.update_of_ne different ..

theorem run_left_of_notMem {other : ℕ} {schedule : List ℕ} (waits : other ∉ schedule) :
    (pool.run answer schedule).left other = pool.left other := by
  induction schedule generalizing pool with
  | nil => rfl
  | cons thread schedule ih =>
      rw [List.mem_cons, not_or] at waits
      exact (ih waits.2).trans (step_left_of_ne waits.1)

theorem apartThroughout_append {first second : List ℕ} :
    pool.ApartThroughout free answer (first ++ second) ↔
      pool.ApartThroughout free answer first ∧
        (pool.run answer first).ApartThroughout free answer second := by
  induction first generalizing pool with
  | nil => exact (and_iff_right trivial).symm
  | cons thread first ih => exact (and_congr_right' ih).trans and_assoc.symm

/-- Threads that take the lock may take turns in any order while no other thread is midway. -/
theorem apartThroughout_of_locking {schedule : List ℕ}
    (locking : ∀ thread ∈ schedule, ¬free thread)
    (idle : ∀ other, free other → ¬pool.Midway other) :
    pool.ApartThroughout free answer schedule := by
  induction schedule generalizing pool with
  | nil => trivial
  | cons thread schedule ih =>
      have locks := locking thread List.mem_cons_self
      refine ⟨fun _ other _ either => idle other (either.resolve_left locks), ?_⟩
      refine ih (fun other later => locking other (List.mem_cons_of_mem _ later)) ?_
      intro other free_other midway
      have different : other ≠ thread := fun same => locks (same ▸ free_other)
      rw [Midway, step_left_of_ne different, step_threads_of_ne different] at midway
      exact idle other free_other midway

theorem apartThroughout_replicate (count : ℕ)
    (alone : ∀ other, other ≠ thread → pool.left other = none) :
    pool.ApartThroughout free answer (List.replicate count thread) := by
  induction count generalizing pool with
  | zero => trivial
  | succ count ih =>
      refine ⟨?_, ?_⟩
      · intro _ other different _ midway
        exact midway.1 (alone other different)
      · apply ih
        intro other different
        rw [step_left_of_ne different, alone other different]

/-! ## Requests in isolation -/

/-- What remains of the program makes requests of its thread only, from the page that the thread
has left. -/
def MakesRequestsAt (request : ℕ → ByteMem → Prop) (pool : Pool α σ) (thread : ℕ) : Prop :=
  ∀ page, (∀ state, pool.left thread = some state → state.1 = page) →
    (pool.threads thread).Requests (request thread) (fun _ _ => True) page

def MakesRequests (request : ℕ → ByteMem → Prop) (pool : Pool α σ) : Prop :=
  ∀ thread, pool.MakesRequestsAt request thread

variable {request : ℕ → ByteMem → Prop}

theorem MakesRequestsAt.here (makes : pool.MakesRequestsAt request thread)
    (undisturbed : pool.Undisturbed thread) (accesses : (pool.threads thread).Accesses) :
    (pool.threads thread).Requests (request thread) (fun _ _ => True) pool.page := by
  apply makes
  intro state state_eq
  rcases undisturbed accesses with none | current
  · rw [none] at state_eq
    cases state_eq
  · rw [current] at state_eq
    cases state_eq
    rfl

theorem MakesRequests.advance (makes : pool.MakesRequests request) {next : Prog α} (counter : ℕ)
    (holder : Option ℕ)
    (continues : ∀ page, (pool.threads thread).Requests (request thread) (fun _ _ => True) page →
      next.Requests (request thread) (fun _ _ => True) page) :
    { pool.advance thread next with counter := counter, holder := holder }.MakesRequests
      request := by
  intro other page left
  by_cases same : other = thread
  · subst same
    simpa [Pool.advance] using continues page (makes other page left)
  · simpa [Pool.advance, same] using makes other page left

theorem MakesRequests.access (makes : pool.MakesRequests request) {next : Prog α} {page : ByteMem}
    {peer : σ} (continues : next.Requests (request thread) (fun _ _ => True) page) :
    (pool.access thread next page peer).MakesRequests request := by
  intro other otherPage left
  by_cases same : other = thread
  · subst same
    have page_eq : page = otherPage := left (page, peer) (Function.update_self ..)
    subst page_eq
    simpa [Pool.access, Pool.advance] using continues
  · have kept : ∀ state, pool.left other = some state → state.1 = otherPage := by
      simpa [Pool.access, Function.update_of_ne same] using left
    simpa [Pool.access, Pool.advance, same] using makes other otherPage kept

theorem MakesRequests.step (answer : σ → ByteMem → σ × ByteMem)
    (makes : pool.MakesRequests request) (undisturbed : pool.Undisturbed thread) :
    (∀ next, pool.threads thread = .ring next → request thread pool.page) ∧
      (pool.step answer thread).MakesRequests request := by
  have here := (makes thread).here undisturbed
  refine ⟨?_, ?_⟩
  · intro next ringing
    rw [ringing] at here
    exact (here trivial).1
  · unfold Pool.step
    split
    · exact makes
    · exact makes
    · rename_i next locking
      split
      · exact makes.advance pool.counter (some thread) fun page holds => by
          rw [locking] at holds
          exact holds page
      · exact makes
    · rename_i next unlocking
      exact makes.advance pool.counter none fun page holds => by
        rw [unlocking] at holds
        exact holds
    · rename_i next counting
      exact makes.advance (pool.counter + 1) pool.holder fun page holds => by
        rw [counting] at holds
        exact holds _
    · rename_i offset bytes next storing
      rw [storing] at here
      exact makes.access (here trivial)
    · rename_i offset size next loading
      rw [loading] at here
      exact makes.access (here trivial)
    · rename_i next ringing
      rw [ringing] at here
      exact makes.access ((here trivial).2 _)

/-- In isolation, the peer is served with requests of the thread that rings. -/
theorem Isolated.serves {schedule : List ℕ}
    (isolated : pool.Isolated answer schedule) (makes : pool.MakesRequests request) :
    pool.Serves answer request schedule := by
  induction schedule generalizing pool with
  | nil => trivial
  | cons thread schedule ih =>
      have stepped := makes.step answer isolated.1
      exact ⟨stepped.1, ih isolated.2 stepped.2⟩

end

end Pool

-- The shape of a program is derived from its parts by the lemmas above, never by unfolding it.
attribute [irreducible] Prog.LockFree Prog.Guarded Prog.Requests

end Acai
