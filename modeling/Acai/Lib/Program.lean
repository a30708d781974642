import Acai.Lib.ByteMemory

/-!
# Programs over a shared page and a doorbell

This file gives a small language of programs that work on a shared byte page:
they take and release one spinlock, store to the page, load from it, and ring a
doorbell which makes a peer handle the page. A program is a tree of such
accesses, so a routine with loads in it branches on what it reads.

`Prog.run` executes a program alone, with a peer that answers every ring.
`Prog.runSpurious` executes it while the peer may also be woken, any number of
times, before each access of the program. The laws `run_bind` and
`runSpurious_bind` let a routine be reasoned about from specifications of the
routines it calls.

The spinlock is not recursive: a program that takes it twice never continues. A
loop of the source that need not end is unrolled with fuel and finishes in
`diverge` when the fuel is spent.
-/

namespace Acai

/-- A program over one shared page, one spinlock and one doorbell. -/
inductive Prog (α : Type) : Type where
  | ret (value : α)
  | lock (next : Prog α)
  | unlock (next : Prog α)
  /-- Increment the counter shared by all programs and read its new value. -/
  | count (next : ℕ → Prog α)
  | store (offset : ℕ) (bytes : List UInt8) (next : Prog α)
  | load (offset size : ℕ) (next : List UInt8 → Prog α)
  /-- Ring the doorbell: the peer handles the page before the program goes on. -/
  | ring (next : Prog α)
  /-- The unrolling of a loop has been used up. -/
  | diverge

namespace Prog

variable {α β : Type}

def bind (program : Prog α) (next : α → Prog β) : Prog β :=
  match program with
  | ret value => next value
  | lock rest => lock (rest.bind next)
  | unlock rest => unlock (rest.bind next)
  | count rest => count fun value => (rest value).bind next
  | store offset bytes rest => store offset bytes (rest.bind next)
  | load offset size rest => load offset size fun bytes => (rest bytes).bind next
  | ring rest => ring (rest.bind next)
  | diverge => diverge

instance : Monad Prog where
  pure := ret
  bind := bind

theorem bind_def (program : Prog α) (next : α → Prog β) :
    program >>= next = program.bind next := rfl

theorem map_def (f : α → β) (program : Prog α) :
    f <$> program = program >>= fun value => pure (f value) := rfl

theorem map_pure {γ : Type} (f : α → γ) (value : α) :
    f <$> (pure value : Prog α) = pure (f value) := rfl

theorem map_bind {γ : Type} (f : β → γ) (program : Prog α) (next : α → Prog β) :
    f <$> (program >>= next) = program >>= fun value => f <$> next value := by
  rw [bind_def, bind_def, map_def, bind_def]
  induction program with
  | ret value => rfl
  | lock rest ih => exact congrArg lock ih
  | unlock rest ih => exact congrArg unlock ih
  | count rest ih => exact congrArg count (funext ih)
  | store offset bytes rest ih => exact congrArg (store offset bytes) ih
  | load offset size rest ih => exact congrArg (load offset size) (funext ih)
  | ring rest ih => exact congrArg ring ih
  | diverge => rfl

def acquire : Prog Unit := lock (ret ())

def release : Prog Unit := unlock (ret ())

def increment : Prog ℕ := count ret

def storeBytes (offset : ℕ) (bytes : List UInt8) : Prog Unit := store offset bytes (ret ())

def storeField (field : Field) (value : ℕ) : Prog Unit :=
  storeBytes field.offset (leBytes field.width value)

def storeInt (field : Field) (value : ℤ) : Prog Unit :=
  storeField field (value % 256 ^ field.width).toNat

def loadBytes (offset size : ℕ) : Prog (List UInt8) := load offset size ret

def loadField (field : Field) : Prog ℕ :=
  load field.offset field.width fun bytes => ret (ofLE bytes)

def loadInt (field : Field) : Prog ℤ :=
  load field.offset field.width fun bytes => ret (Int.bmod (ofLE bytes) (256 ^ field.width))

def doorbell : Prog Unit := ring (ret ())

/-- The C function: load byte after byte up to a null byte, `limit` bytes at most. -/
def strlen (offset : ℕ) : ℕ → Prog ℕ
  | 0 => pure 0
  | limit + 1 => do
      let byte ← loadBytes offset 1
      if byte = [0] then pure 0 else Nat.succ <$> strlen (offset + 1) limit

end Prog

/-- The page, the spinlock, the counter and the state of the peer. -/
structure Machine (σ : Type) where
  page : ByteMem
  locked : Bool
  counter : ℕ
  peer : σ

namespace Machine

variable {σ : Type}

def storing (machine : Machine σ) (offset : ℕ) (bytes : List UInt8) : Machine σ :=
  { machine with page := machine.page.writeBytes offset bytes }

def answered (answer : σ → ByteMem → σ × ByteMem) (machine : Machine σ) : Machine σ :=
  { machine with
    peer := (answer machine.peer machine.page).1
    page := (answer machine.peer machine.page).2 }

end Machine

/-- How a program ends when it runs alone. -/
inductive Result (α : Type) where
  | done (value : α)
  /-- It spins on a lock that it holds itself. -/
  | deadlock
  /-- It used up the unrolling of a loop. -/
  | diverged
  deriving DecidableEq

namespace Prog

variable {α β σ : Type}

/-- Run a program alone; `answer` is what the peer does to its state and the page. -/
def run (answer : σ → ByteMem → σ × ByteMem) :
    Prog α → Machine σ → Result α × Machine σ
  | ret value, machine => (.done value, machine)
  | lock next, machine =>
      if machine.locked then (.deadlock, machine)
      else next.run answer { machine with locked := true }
  | unlock next, machine => next.run answer { machine with locked := false }
  | count next, machine =>
      (next (machine.counter + 1)).run answer { machine with counter := machine.counter + 1 }
  | store offset bytes next, machine =>
      next.run answer (machine.storing offset bytes)
  | load offset size next, machine =>
      (next (machine.page.readBytes offset size)).run answer machine
  | ring next, machine => next.run answer (machine.answered answer)
  | diverge, machine => (.diverged, machine)

/-- Continue with `next` after a program that returned; every other end is final. -/
def andThen (outcome : Result α × Machine σ) (next : α → Machine σ → Result β × Machine σ) :
    Result β × Machine σ :=
  match outcome with
  | (.done value, machine) => next value machine
  | (.deadlock, machine) => (.deadlock, machine)
  | (.diverged, machine) => (.diverged, machine)

@[simp]
theorem andThen_done (value : α) (machine : Machine σ)
    (next : α → Machine σ → Result β × Machine σ) :
    andThen (.done value, machine) next = next value machine := rfl

variable (answer : σ → ByteMem → σ × ByteMem)

@[simp]
theorem run_pure (value : α) (machine : Machine σ) :
    (pure value : Prog α).run answer machine = (.done value, machine) := rfl

theorem run_bind (program : Prog α) (next : α → Prog β) (machine : Machine σ) :
    (program >>= next).run answer machine =
      andThen (program.run answer machine) fun value => (next value).run answer := by
  rw [bind_def]
  induction program generalizing machine with
  | ret value => rfl
  | lock rest ih =>
      simp only [bind, run]
      split
      · rfl
      · exact ih _
  | unlock rest ih => exact ih _
  | count rest ih => exact ih _ _
  | store offset bytes rest ih => exact ih _
  | load offset size rest ih => exact ih _ _
  | ring rest ih => exact ih _
  | diverge => rfl

theorem run_bind_of_done {program : Prog α} {next : α → Prog β} {machine machine' : Machine σ}
    {value : α} (returns : program.run answer machine = (.done value, machine')) :
    (program >>= next).run answer machine = (next value).run answer machine' := by
  rw [run_bind, returns, andThen_done]

@[simp]
theorem run_storeBytes (offset : ℕ) (bytes : List UInt8) (machine : Machine σ) :
    (storeBytes offset bytes).run answer machine =
      (.done (), { machine with page := machine.page.writeBytes offset bytes }) := rfl

@[simp]
theorem run_storeField (field : Field) (value : ℕ) (machine : Machine σ) :
    (storeField field value).run answer machine =
      (.done (), { machine with page := machine.page.set field value }) := rfl

@[simp]
theorem run_storeInt (field : Field) (value : ℤ) (machine : Machine σ) :
    (storeInt field value).run answer machine =
      (.done (), { machine with page := machine.page.setInt field value }) := rfl

@[simp]
theorem run_loadBytes (offset size : ℕ) (machine : Machine σ) :
    (loadBytes offset size).run answer machine =
      (.done (machine.page.readBytes offset size), machine) := rfl

@[simp]
theorem run_loadField (field : Field) (machine : Machine σ) :
    (loadField field).run answer machine = (.done (machine.page.get field), machine) := rfl

@[simp]
theorem run_loadInt (field : Field) (machine : Machine σ) :
    (loadInt field).run answer machine = (.done (machine.page.getInt field), machine) := rfl

@[simp]
theorem run_increment (machine : Machine σ) :
    increment.run answer machine =
      (.done (machine.counter + 1), { machine with counter := machine.counter + 1 }) := rfl

@[simp]
theorem run_doorbell (machine : Machine σ) :
    doorbell.run answer machine = (.done (), machine.answered answer) := rfl

@[simp]
theorem run_release (machine : Machine σ) :
    release.run answer machine = (.done (), { machine with locked := false }) := rfl

theorem run_strlen (offset limit : ℕ) (machine : Machine σ) :
    (strlen offset limit).run answer machine =
      (.done ((machine.page.readBytes offset limit).takeWhile (· ≠ 0)).length, machine) := by
  induction limit generalizing offset with
  | zero => rfl
  | succ limit ih =>
      have byte : machine.page.readBytes offset 1 = [machine.page offset] := rfl
      rw [strlen, run_bind_of_done _ (run_loadBytes _ _ _ machine), byte, ByteMem.readBytes_succ]
      by_cases null : machine.page offset = 0
      · simp [null]
      · rw [if_neg (by simpa using null), map_def, run_bind_of_done _ (ih (offset + 1))]
        simp [null]

theorem run_acquire_of_free {machine : Machine σ} (free : machine.locked = false) :
    acquire.run answer machine = (.done (), { machine with locked := true }) := by
  simp [acquire, run, free]

end Prog

namespace Machine

variable {σ : Type}

def wake (answer : σ → ByteMem → σ × ByteMem) : ℕ → Machine σ → Machine σ
  | 0, machine => machine
  | times + 1, machine => wake answer times (machine.answered answer)

theorem answered_of_idle {answer : σ → ByteMem → σ × ByteMem} {machine : Machine σ}
    (idle : answer machine.peer machine.page = (machine.peer, machine.page)) :
    machine.answered answer = machine := by
  simp [answered, idle]

theorem wake_of_idle {answer : σ → ByteMem → σ × ByteMem} {machine : Machine σ}
    (idle : answer machine.peer machine.page = (machine.peer, machine.page)) (times : ℕ) :
    machine.wake answer times = machine := by
  induction times with
  | zero => rfl
  | succ times ih => simpa [wake, answered_of_idle idle] using ih

end Machine

namespace Prog

variable {α σ : Type}

/--
Run a program while the peer is also woken without a ring. The list says how
often before each store, load and ring; the peer is not woken after the list
has ended.
-/
def runSpurious (answer : σ → ByteMem → σ × ByteMem) :
    Prog α → List ℕ → Machine σ → Result α × Machine σ
  | ret value, _, machine => (.done value, machine)
  | lock next, wakes, machine =>
      if machine.locked then (.deadlock, machine)
      else next.runSpurious answer wakes { machine with locked := true }
  | unlock next, wakes, machine =>
      next.runSpurious answer wakes { machine with locked := false }
  | count next, wakes, machine =>
      (next (machine.counter + 1)).runSpurious answer wakes
        { machine with counter := machine.counter + 1 }
  | store offset bytes next, wakes, machine =>
      next.runSpurious answer wakes.tail
        ((machine.wake answer (wakes.headD 0)).storing offset bytes)
  | load offset size next, wakes, machine =>
      let woken := machine.wake answer (wakes.headD 0)
      (next (woken.page.readBytes offset size)).runSpurious answer wakes.tail woken
  | ring next, wakes, machine =>
      next.runSpurious answer wakes.tail
        ((machine.wake answer (wakes.headD 0)).answered answer)
  | diverge, _, machine => (.diverged, machine)

/-- A preorder on the states of the peer that every answer respects is respected by every run. -/
theorem runSpurious_peer {answer : σ → ByteMem → σ × ByteMem} {r : σ → σ → Prop}
    (refl : ∀ peer, r peer peer) (trans : ∀ first second third, r first second →
      r second third → r first third)
    (step : ∀ peer page, r peer (answer peer page).1) (program : Prog α) (wakes : List ℕ)
    (machine : Machine σ) : r machine.peer (program.runSpurious answer wakes machine).2.peer := by
  have woken : ∀ times (machine : Machine σ), r machine.peer (machine.wake answer times).peer := by
    intro times
    induction times with
    | zero => exact fun machine => refl machine.peer
    | succ times ih =>
        exact fun machine =>
          trans _ _ _ (step machine.peer machine.page) (ih (machine.answered answer))
  induction program generalizing wakes machine with
  | ret value => exact refl machine.peer
  | lock next ih =>
      simp only [runSpurious]
      split
      · exact refl machine.peer
      · exact ih wakes { machine with locked := true }
  | unlock next ih => exact ih wakes { machine with locked := false }
  | count next ih =>
      exact ih (machine.counter + 1) wakes { machine with counter := machine.counter + 1 }
  | store offset bytes next ih =>
      exact trans _ _ _ (woken _ machine)
        (ih wakes.tail ((machine.wake answer (wakes.headD 0)).storing offset bytes))
  | load offset size next ih => exact trans _ _ _ (woken _ machine) (ih _ wakes.tail _)
  | ring next ih =>
      have rung := step (machine.wake answer (wakes.headD 0)).peer
        (machine.wake answer (wakes.headD 0)).page
      exact trans _ _ _ (woken _ machine) (trans _ _ _ rung
        (ih wakes.tail ((machine.wake answer (wakes.headD 0)).answered answer)))
  | diverge => exact refl machine.peer

end Prog

end Acai
