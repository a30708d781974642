import Acai.Lib.Interleaving

/-!
# Traces of programs

The accesses that a program makes while it runs alone, in order, and a judgement
about them: `Prog.Ensures` says that every access of a run is a good one and that
a postcondition holds if the program returns. The judgement is a weakest
precondition, with one law for each way to build a program, so a routine is
judged from the judgements of the routines that it calls. `Prog.KeepsPeer` is its
use for an invariant of the peer alone.

The last part is the discipline of a spinlock that is not recursive: it is not
taken by a program that holds it, and the doorbell is only rung by a program that
does.
-/

namespace Acai

/-- An access of a program. An attempt to take the lock and a ring say whether it was held. -/
inductive Access where
  | lock (held : Bool)
  | unlock
  | store (offset size : ℕ)
  | load (offset size : ℕ)
  | ring (held : Bool)
  deriving DecidableEq

namespace Prog

variable {α β σ : Type}

/-- The accesses of a run; a program that waits for its own lock makes no more of them. -/
@[simp]
def trace (answer : σ → ByteMem → σ × ByteMem) : Prog α → Machine σ → List Access
  | ret _, _ => []
  | lock next, machine =>
      .lock machine.locked ::
        if machine.locked then [] else next.trace answer { machine with locked := true }
  | unlock next, machine => .unlock :: next.trace answer { machine with locked := false }
  | count next, machine =>
      (next (machine.counter + 1)).trace answer { machine with counter := machine.counter + 1 }
  | store offset bytes next, machine =>
      .store offset bytes.length :: next.trace answer (machine.storing offset bytes)
  | load offset size next, machine =>
      .load offset size :: (next (machine.page.readBytes offset size)).trace answer machine
  | ring next, machine => .ring machine.locked :: next.trace answer (machine.answered answer)
  | diverge, _ => []

/-- Every access of the run is good, and `post` holds if the program returns. -/
def Ensures (answer : σ → ByteMem → σ × ByteMem) (good : Access → Prop) (program : Prog α)
    (machine : Machine σ) (post : α → Machine σ → Prop) : Prop :=
  (∀ access ∈ program.trace answer machine, good access) ∧
    ∀ value machine', program.run answer machine = (.done value, machine') → post value machine'

section Laws

variable {answer : σ → ByteMem → σ × ByteMem} {good : Access → Prop} {machine : Machine σ}
  {post : α → Machine σ → Prop}

theorem ensures_ret (value : α) : (ret value).Ensures answer good machine post ↔
    post value machine := by
  simp [Ensures, run]

theorem ensures_lock (next : Prog α) : (lock next).Ensures answer good machine post ↔
    good (.lock machine.locked) ∧ (machine.locked = false →
      next.Ensures answer good { machine with locked := true } post) := by
  cases locked : machine.locked <;> simp [Ensures, run, locked, and_assoc]

theorem ensures_unlock (next : Prog α) : (unlock next).Ensures answer good machine post ↔
    good .unlock ∧ next.Ensures answer good { machine with locked := false } post := by
  simp [Ensures, run, and_assoc]

theorem ensures_count (next : ℕ → Prog α) : (count next).Ensures answer good machine post ↔
    (next (machine.counter + 1)).Ensures answer good
      { machine with counter := machine.counter + 1 } post :=
  Iff.rfl

theorem ensures_store (offset : ℕ) (bytes : List UInt8) (next : Prog α) :
    (store offset bytes next).Ensures answer good machine post ↔
      good (.store offset bytes.length) ∧
        next.Ensures answer good (machine.storing offset bytes) post := by
  simp [Ensures, run, and_assoc]

theorem ensures_load (offset size : ℕ) (next : List UInt8 → Prog α) :
    (load offset size next).Ensures answer good machine post ↔
      good (.load offset size) ∧
        (next (machine.page.readBytes offset size)).Ensures answer good machine post := by
  simp [Ensures, run, and_assoc]

theorem ensures_ring (next : Prog α) : (ring next).Ensures answer good machine post ↔
    good (.ring machine.locked) ∧ next.Ensures answer good (machine.answered answer) post := by
  simp [Ensures, run, and_assoc]

@[simp]
theorem ensures_diverge : (diverge : Prog α).Ensures answer good machine post := by
  simp [Ensures, run]

theorem ensures_bind (program : Prog β) (next : β → Prog α) :
    (program >>= next).Ensures answer good machine post ↔
      program.Ensures answer good machine fun value machine' =>
        (next value).Ensures answer good machine' post := by
  rw [bind_def]
  induction program generalizing machine with
  | ret value => rw [ensures_ret]; rfl
  | lock rest ih => simp only [bind, ensures_lock, ih]
  | unlock rest ih => simp only [bind, ensures_unlock, ih]
  | count rest ih => simp only [bind, ensures_count, ih]
  | store offset bytes rest ih => simp only [bind, ensures_store, ih]
  | load offset size rest ih => simp only [bind, ensures_load, ih]
  | ring rest ih => simp only [bind, ensures_ring, ih]
  | diverge => exact iff_of_true ensures_diverge ensures_diverge

theorem Ensures.imp {post' : α → Machine σ → Prop} {program : Prog α}
    (ensures : program.Ensures answer good machine post)
    (weaker : ∀ value machine', post value machine' → post' value machine') :
    program.Ensures answer good machine post' :=
  ⟨ensures.1, fun value machine' ran => weaker value machine' (ensures.2 value machine' ran)⟩

/-- What is ensured of a program that returns is ensured of its continuation. -/
theorem Ensures.next {program : Prog β} {next : β → Prog α} {value : β} {machine' : Machine σ}
    (ensures : (program >>= next).Ensures answer good machine post)
    (returns : program.run answer machine = (.done value, machine')) :
    (next value).Ensures answer good machine' post :=
  ((ensures_bind program next).mp ensures).2 value machine' returns

theorem ensures_map {γ : Type} {post : γ → Machine σ → Prop} (f : β → γ) (program : Prog β) :
    (f <$> program).Ensures answer good machine post ↔
      program.Ensures answer good machine fun value machine' => post (f value) machine' := by
  rw [map_def, ensures_bind]
  simp only [show ∀ value, (pure (f value) : Prog γ) = ret (f value) from fun _ => rfl, ensures_ret]

@[simp]
theorem ensures_pure (value : α) : (pure value : Prog α).Ensures answer good machine post ↔
    post value machine :=
  ensures_ret value

@[simp]
theorem ensures_acquire {post : Unit → Machine σ → Prop} :
    acquire.Ensures answer good machine post ↔
      good (.lock machine.locked) ∧
        (machine.locked = false → post () { machine with locked := true }) := by
  rw [acquire, ensures_lock, ensures_ret]

@[simp]
theorem ensures_release {post : Unit → Machine σ → Prop} :
    release.Ensures answer good machine post ↔
      good .unlock ∧ post () { machine with locked := false } := by
  rw [release, ensures_unlock, ensures_ret]

@[simp]
theorem ensures_increment {post : ℕ → Machine σ → Prop} :
    increment.Ensures answer good machine post ↔
      post (machine.counter + 1) { machine with counter := machine.counter + 1 } := by
  rw [increment, ensures_count, ensures_ret]

@[simp]
theorem ensures_storeBytes {post : Unit → Machine σ → Prop} (offset : ℕ) (bytes : List UInt8) :
    (storeBytes offset bytes).Ensures answer good machine post ↔
      good (.store offset bytes.length) ∧ post () (machine.storing offset bytes) := by
  rw [storeBytes, ensures_store, ensures_ret]

@[simp]
theorem ensures_storeField {post : Unit → Machine σ → Prop} (field : Field) (value : ℕ) :
    (storeField field value).Ensures answer good machine post ↔
      good (.store field.offset field.width) ∧
        post () { machine with page := machine.page.set field value } := by
  rw [storeField, ensures_storeBytes, length_leBytes]
  rfl

@[simp]
theorem ensures_storeInt {post : Unit → Machine σ → Prop} (field : Field) (value : ℤ) :
    (storeInt field value).Ensures answer good machine post ↔
      good (.store field.offset field.width) ∧
        post () { machine with page := machine.page.setInt field value } := by
  rw [storeInt, ensures_storeField]
  rfl

@[simp]
theorem ensures_loadBytes {post : List UInt8 → Machine σ → Prop} (offset size : ℕ) :
    (loadBytes offset size).Ensures answer good machine post ↔
      good (.load offset size) ∧ post (machine.page.readBytes offset size) machine := by
  rw [loadBytes, ensures_load, ensures_ret]

@[simp]
theorem ensures_loadField {post : ℕ → Machine σ → Prop} (field : Field) :
    (loadField field).Ensures answer good machine post ↔
      good (.load field.offset field.width) ∧ post (machine.page.get field) machine := by
  rw [loadField, ensures_load, ensures_ret]
  rfl

@[simp]
theorem ensures_loadInt {post : ℤ → Machine σ → Prop} (field : Field) :
    (loadInt field).Ensures answer good machine post ↔
      good (.load field.offset field.width) ∧ post (machine.page.getInt field) machine := by
  rw [loadInt, ensures_load, ensures_ret]
  rfl

@[simp]
theorem ensures_doorbell {post : Unit → Machine σ → Prop} :
    doorbell.Ensures answer good machine post ↔
      good (.ring machine.locked) ∧ post () (machine.answered answer) := by
  rw [doorbell, ensures_ring, ensures_ret]

end Laws

/-! ## Invariants of the peer -/

/-- A run that starts with a peer in `inv` leaves one in `inv` if it returns. -/
def KeepsPeer (answer : σ → ByteMem → σ × ByteMem) (inv : σ → Prop) (program : Prog α) : Prop :=
  ∀ machine : Machine σ, inv machine.peer →
    program.Ensures answer (fun _ => True) machine fun _ final => inv final.peer

section Peers

variable {answer : σ → ByteMem → σ × ByteMem} {inv : σ → Prop}

theorem keepsPeer_pure (value : α) : (pure value : Prog α).KeepsPeer answer inv :=
  fun _ holds => (ensures_pure value).mpr holds

theorem keepsPeer_diverge : (diverge : Prog α).KeepsPeer answer inv :=
  fun _ _ => ensures_diverge

theorem KeepsPeer.bind {program : Prog β} {next : β → Prog α}
    (first : program.KeepsPeer answer inv) (rest : ∀ value, (next value).KeepsPeer answer inv) :
    (program >>= next).KeepsPeer answer inv :=
  fun machine holds => (ensures_bind program next).mpr
    ((first machine holds).imp fun value _ kept => rest value _ kept)

theorem keepsPeer_acquire : acquire.KeepsPeer answer inv :=
  fun _ holds => ensures_acquire.mpr ⟨trivial, fun _ => holds⟩

theorem keepsPeer_release : release.KeepsPeer answer inv :=
  fun _ holds => ensures_release.mpr ⟨trivial, holds⟩

theorem keepsPeer_storeBytes (offset : ℕ) (bytes : List UInt8) :
    (storeBytes offset bytes).KeepsPeer answer inv :=
  fun _ holds => (ensures_storeBytes offset bytes).mpr ⟨trivial, holds⟩

theorem keepsPeer_storeField (field : Field) (value : ℕ) :
    (storeField field value).KeepsPeer answer inv :=
  fun _ holds => (ensures_storeField field value).mpr ⟨trivial, holds⟩

theorem keepsPeer_storeInt (field : Field) (value : ℤ) :
    (storeInt field value).KeepsPeer answer inv :=
  fun _ holds => (ensures_storeInt field value).mpr ⟨trivial, holds⟩

theorem keepsPeer_loadField (field : Field) : (loadField field).KeepsPeer answer inv :=
  fun _ holds => (ensures_loadField field).mpr ⟨trivial, holds⟩

theorem keepsPeer_loadInt (field : Field) : (loadInt field).KeepsPeer answer inv :=
  fun _ holds => (ensures_loadInt field).mpr ⟨trivial, holds⟩

end Peers

end Prog

/-! ## Accesses within a bound -/

namespace Access

/-- Every byte of the access lies below `limit`. -/
def Within (limit : ℕ) : Access → Prop
  | .store offset size | .load offset size =>
      ∀ address, offset ≤ address → address < offset + size → address < limit
  | _ => True

variable {limit offset size : ℕ}

theorem within_store_iff :
    (Access.store offset size).Within limit ↔ size = 0 ∨ offset + size ≤ limit := by
  constructor
  · intro within
    rcases size with _ | size
    · exact Or.inl rfl
    · have last := within (offset + size) (by omega) (by omega)
      omega
  · intro fits address _ _
    omega

theorem within_load_iff :
    (Access.load offset size).Within limit ↔ size = 0 ∨ offset + size ≤ limit :=
  within_store_iff

end Access

/-! ## The discipline of the lock -/

/-- The lock is not taken by a program that holds it, and is held at every ring. -/
def Access.Disciplined : Access → Prop
  | .lock held => held = false
  | .ring held => held = true
  | _ => True

namespace Prog

variable {α β σ : Type} {answer : σ → ByteMem → σ × ByteMem} {machine : Machine σ}

theorem LockFree.disciplined {program : Prog α} (lockFree : program.LockFree)
    (locked : machine.locked = true) :
    program.Ensures answer Access.Disciplined machine fun _ machine' =>
      machine'.locked = true := by
  induction program generalizing machine with
  | ret value => exact (ensures_ret value).mpr locked
  | lock next => exact absurd lockFree (not_lockFree_lock next)
  | unlock next => exact absurd lockFree (not_lockFree_unlock next)
  | count next ih => exact (ensures_count next).mpr (ih _ (lockFree.of_count _) locked)
  | store offset bytes next ih =>
      exact (ensures_store offset bytes next).mpr ⟨trivial, ih lockFree.of_store locked⟩
  | load offset size next ih =>
      exact (ensures_load offset size next).mpr ⟨trivial, ih _ (lockFree.of_load _) locked⟩
  | ring next ih => exact (ensures_ring next).mpr ⟨locked, ih lockFree.of_ring locked⟩
  | diverge => exact ensures_diverge

theorem LockFree.disciplined_bind {program : Prog β} {next : β → Prog α}
    {post : α → Machine σ → Prop} (lockFree : program.LockFree) (locked : machine.locked = true)
    (rest : ∀ value (machine' : Machine σ), machine'.locked = true →
      (next value).Ensures answer Access.Disciplined machine' post) :
    (program >>= next).Ensures answer Access.Disciplined machine post := by
  rw [ensures_bind]
  exact (lockFree.disciplined locked).imp rest

theorem disciplined_acquire {next : Unit → Prog α} {post : α → Machine σ → Prop}
    (free : machine.locked = false)
    (rest : ∀ machine' : Machine σ, machine'.locked = true →
      (next ()).Ensures answer Access.Disciplined machine' post) :
    (acquire >>= next).Ensures answer Access.Disciplined machine post := by
  rw [ensures_bind, ensures_acquire]
  exact ⟨free, fun _ => rest _ rfl⟩

theorem disciplined_release (value : α) (machine : Machine σ) :
    (release >>= fun _ => pure value).Ensures answer Access.Disciplined machine
      fun _ machine' => machine'.locked = false := by
  rw [ensures_bind, ensures_release, ensures_pure]
  exact ⟨trivial, rfl⟩

end Prog

end Acai
