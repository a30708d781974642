import Acai.Lib.Program
import Mathlib.Data.Set.Function
import Mathlib.Order.Interval.Set.Basic

/-!
# Two runs of one program

A program that runs twice, on pages that agree on some bytes and against peers
that are alike, does the same in both runs as long as it only loads bytes on
which the pages agree. `Prog.Alike` follows the two runs in step. It holds when
all loads of the runs coincide, when each load is fresh, that is allowed after
the last ring, and when a postcondition relates the two machines at the end.

The judgement has one law for each way to build a program. The rules of `Paired`
keep track of the bytes on which the two pages agree: a store adds a block to
them, and a load needs its block among them.
-/

namespace Acai

/-- A load of a run: the machine at the last ring before it, where it reads, and what. -/
structure Load (σ : Type) where
  rung : Option (Machine σ)
  offset : ℕ
  bytes : List UInt8

namespace Prog

variable {α β σ : Type}

/-- The loads of a run that has last rung at `rung`. -/
def loads (answer : σ → ByteMem → σ × ByteMem) :
    Prog α → Option (Machine σ) → Machine σ → List (Load σ)
  | ret _, _, _ => []
  | lock next, rung, machine =>
      if machine.locked then [] else next.loads answer rung { machine with locked := true }
  | unlock next, rung, machine => next.loads answer rung { machine with locked := false }
  | count next, rung, machine =>
      (next (machine.counter + 1)).loads answer rung
        { machine with counter := machine.counter + 1 }
  | store offset bytes next, rung, machine =>
      next.loads answer rung (machine.storing offset bytes)
  | load offset size next, rung, machine =>
      ⟨rung, offset, machine.page.readBytes offset size⟩ ::
        (next (machine.page.readBytes offset size)).loads answer rung machine
  | ring next, _, machine => next.loads answer (some machine) (machine.answered answer)
  | diverge, _, _ => []

section

variable (answer : σ → ByteMem → σ × ByteMem) (same : σ → σ → Prop)
  (fresh : Option (Machine σ) → ℕ → ℕ → Prop)

/--
The two runs load the same bytes, their loads are fresh, the peers stay the same
up to `same`, and `post` holds if the runs return.
-/
def Alike (post : α → Option (Machine σ) → Machine σ → Machine σ → Prop) :
    Prog α → Option (Machine σ) → Machine σ → Machine σ → Prop
  | ret value, rung, left, right => post value rung left right
  | lock next, rung, left, right =>
      left.locked = right.locked ∧ (left.locked = false →
        next.Alike post rung { left with locked := true } { right with locked := true })
  | unlock next, rung, left, right =>
      next.Alike post rung { left with locked := false } { right with locked := false }
  | count next, rung, left, right =>
      left.counter = right.counter ∧
        (next (left.counter + 1)).Alike post rung { left with counter := left.counter + 1 }
          { right with counter := right.counter + 1 }
  | store offset bytes next, rung, left, right =>
      next.Alike post rung (left.storing offset bytes) (right.storing offset bytes)
  | load offset size next, rung, left, right =>
      fresh rung offset size ∧
        left.page.readBytes offset size = right.page.readBytes offset size ∧
          (next (left.page.readBytes offset size)).Alike post rung left right
  | ring next, _, left, right =>
      same (left.answered answer).peer (right.answered answer).peer ∧
        next.Alike post (some left) (left.answered answer) (right.answered answer)
  | diverge, _, _, _ => True

end

section

variable {answer : σ → ByteMem → σ × ByteMem} {same : σ → σ → Prop}
  {fresh : Option (Machine σ) → ℕ → ℕ → Prop} {rung : Option (Machine σ)}
  {left right : Machine σ}

theorem alike_bind {post : β → Option (Machine σ) → Machine σ → Machine σ → Prop}
    (program : Prog α) (next : α → Prog β) :
    (program >>= next).Alike answer same fresh post rung left right ↔
      program.Alike answer same fresh
        (fun value rung' left' right' =>
          (next value).Alike answer same fresh post rung' left' right') rung left right := by
  rw [bind_def]
  induction program generalizing rung left right with
  | ret value => rfl
  | lock rest ih => simp only [bind, Alike, ih]
  | unlock rest ih => simp only [bind, Alike, ih]
  | count rest ih => simp only [bind, Alike, ih]
  | store offset bytes rest ih => simp only [bind, Alike, ih]
  | load offset size rest ih => simp only [bind, Alike, ih]
  | ring rest ih => simp only [bind, Alike, ih]
  | diverge => rfl

theorem Alike.imp {post post' : α → Option (Machine σ) → Machine σ → Machine σ → Prop}
    {program : Prog α} (alike : program.Alike answer same fresh post rung left right)
    (weaker : ∀ value rung' left' right', post value rung' left' right' →
      post' value rung' left' right') :
    program.Alike answer same fresh post' rung left right := by
  induction program generalizing rung left right with
  | ret value => exact weaker value rung left right alike
  | lock rest ih => exact ⟨alike.1, fun free => ih (alike.2 free)⟩
  | unlock rest ih => exact ih alike
  | count rest ih => exact ⟨alike.1, ih _ alike.2⟩
  | store offset bytes rest ih => exact ih alike
  | load offset size rest ih => exact ⟨alike.1, alike.2.1, ih _ alike.2.2⟩
  | ring rest ih => exact ⟨alike.1, ih alike.2⟩
  | diverge => trivial

theorem Alike.bind {post : α → Option (Machine σ) → Machine σ → Machine σ → Prop}
    {post' : β → Option (Machine σ) → Machine σ → Machine σ → Prop} {program : Prog α}
    {next : α → Prog β} (first : program.Alike answer same fresh post rung left right)
    (rest : ∀ value rung' left' right', post value rung' left' right' →
      (next value).Alike answer same fresh post' rung' left' right') :
    (program >>= next).Alike answer same fresh post' rung left right :=
  (alike_bind program next).mpr (first.imp rest)

/-- What two runs of a program share, that have last rung at `rung` and `rung'`. -/
structure SameRun (answer : σ → ByteMem → σ × ByteMem) (same : σ → σ → Prop) (program : Prog α)
    (rung rung' : Option (Machine σ)) (left right : Machine σ) : Prop where
  result : (program.run answer left).1 = (program.run answer right).1
  loads : (program.loads answer rung left).map (fun load => (load.offset, load.bytes)) =
    (program.loads answer rung' right).map (fun load => (load.offset, load.bytes))
  peer : same (program.run answer left).2.peer (program.run answer right).2.peer

section Sound

variable {post : α → Option (Machine σ) → Machine σ → Machine σ → Prop} {program : Prog α}

theorem Alike.sameRun (alike : program.Alike answer same fresh post rung left right)
    (peers : same left.peer right.peer) (rung' : Option (Machine σ)) :
    program.SameRun answer same rung rung' left right := by
  induction program generalizing rung rung' left right with
  | ret value => exact ⟨rfl, rfl, peers⟩
  | lock rest ih =>
      have locked := alike.1
      cases free : left.locked with
      | true =>
          rw [free] at locked
          constructor <;> simp [run, loads, free, ← locked, peers]
      | false =>
          have further := ih (alike.2 free) peers rung'
          rw [free] at locked
          constructor
          · simpa [run, free, ← locked] using further.result
          · simpa [Prog.loads, free, ← locked] using further.loads
          · simpa [run, free, ← locked] using further.peer
  | unlock rest ih =>
      have further := ih alike peers rung'
      exact ⟨further.result, further.loads, further.peer⟩
  | count rest ih =>
      have further := ih _ alike.2 peers rung'
      have counters := alike.1
      constructor
      · simp only [run]
        rw [← counters] at further ⊢
        exact further.result
      · simp only [Prog.loads]
        rw [← counters] at further ⊢
        exact further.loads
      · simp only [run]
        rw [← counters] at further ⊢
        exact further.peer
  | store offset bytes rest ih =>
      have further := ih alike peers rung'
      exact ⟨further.result, further.loads, further.peer⟩
  | load offset size rest ih =>
      have further := ih _ alike.2.2 peers rung'
      have bytes := alike.2.1
      constructor
      · simp only [run]
        rw [← bytes]
        exact further.result
      · simp only [Prog.loads, List.map_cons]
        rw [← bytes, further.loads]
      · simp only [run]
        rw [← bytes]
        exact further.peer
  | ring rest ih =>
      have further := ih alike.2 alike.1 (some right)
      exact ⟨further.result, further.loads, further.peer⟩
  | diverge => exact ⟨rfl, rfl, peers⟩

theorem Alike.loads_fresh (alike : program.Alike answer same fresh post rung left right) :
    ∀ load ∈ program.loads answer rung left, fresh load.rung load.offset load.bytes.length := by
  induction program generalizing rung left right with
  | ret value => simp [loads]
  | lock rest ih =>
      simp only [loads]
      split
      · simp
      · rename_i notLocked
        exact ih (alike.2 (by simpa using notLocked))
  | unlock rest ih => exact ih alike
  | count rest ih => exact ih _ alike.2
  | store offset bytes rest ih => exact ih alike
  | load offset size rest ih =>
      simp only [loads, List.forall_mem_cons, ByteMem.length_readBytes]
      exact ⟨alike.1, ih _ alike.2.2⟩
  | ring rest ih => exact ih alike.2
  | diverge => simp [loads]

end Sound

/-! ### The loads of composed programs -/

section Loads

variable {machine : Machine σ}

theorem loads_acquire_bind (free : machine.locked = false) (next : Unit → Prog α) :
    (acquire >>= next).loads answer rung machine =
      (next ()).loads answer rung { machine with locked := true } := by
  simp [bind_def, acquire, bind, loads, free]

theorem loads_storeField_bind (field : Field) (value : ℕ) (next : Unit → Prog α) :
    (storeField field value >>= next).loads answer rung machine =
      (next ()).loads answer rung { machine with page := machine.page.set field value } := rfl

theorem loads_storeInt_bind (field : Field) (value : ℤ) (next : Unit → Prog α) :
    (storeInt field value >>= next).loads answer rung machine =
      (next ()).loads answer rung { machine with page := machine.page.setInt field value } := rfl

theorem loads_loadField_bind (field : Field) (next : ℕ → Prog α) :
    (loadField field >>= next).loads answer rung machine =
      ⟨rung, field.offset, machine.page.readBytes field.offset field.width⟩ ::
        (next (machine.page.get field)).loads answer rung machine := rfl

end Loads

theorem alike_map {γ : Type} {post : γ → Option (Machine σ) → Machine σ → Machine σ → Prop}
    (f : β → γ) (program : Prog β) :
    (f <$> program).Alike answer same fresh post rung left right ↔
      program.Alike answer same fresh
        (fun value rung' left' right' => post (f value) rung' left' right') rung left right := by
  rw [map_def, alike_bind]
  rfl

theorem alike_pure {post : α → Option (Machine σ) → Machine σ → Machine σ → Prop} (value : α) :
    (pure value : Prog α).Alike answer same fresh post rung left right ↔
      post value rung left right := Iff.rfl

theorem alike_diverge {post : α → Option (Machine σ) → Machine σ → Machine σ → Prop} :
    (diverge : Prog α).Alike answer same fresh post rung left right := trivial

theorem alike_increment {post : ℕ → Option (Machine σ) → Machine σ → Machine σ → Prop} :
    increment.Alike answer same fresh post rung left right ↔
      left.counter = right.counter ∧
        post (left.counter + 1) rung { left with counter := left.counter + 1 }
          { right with counter := right.counter + 1 } := Iff.rfl

theorem alike_storeBytes {post : Unit → Option (Machine σ) → Machine σ → Machine σ → Prop}
    (offset : ℕ) (bytes : List UInt8) :
    (storeBytes offset bytes).Alike answer same fresh post rung left right ↔
      post () rung { left with page := left.page.writeBytes offset bytes }
        { right with page := right.page.writeBytes offset bytes } := Iff.rfl

theorem alike_storeField {post : Unit → Option (Machine σ) → Machine σ → Machine σ → Prop}
    (field : Field) (value : ℕ) :
    (storeField field value).Alike answer same fresh post rung left right ↔
      post () rung { left with page := left.page.set field value }
        { right with page := right.page.set field value } := Iff.rfl

theorem alike_storeInt {post : Unit → Option (Machine σ) → Machine σ → Machine σ → Prop}
    (field : Field) (value : ℤ) :
    (storeInt field value).Alike answer same fresh post rung left right ↔
      post () rung { left with page := left.page.setInt field value }
        { right with page := right.page.setInt field value } := Iff.rfl

theorem alike_doorbell {post : Unit → Option (Machine σ) → Machine σ → Machine σ → Prop} :
    doorbell.Alike answer same fresh post rung left right ↔
      same (left.answered answer).peer (right.answered answer).peer ∧
        post () (some left) (left.answered answer) (right.answered answer) := Iff.rfl

end

end Prog

/-! ## Bytes on which two pages agree -/

def Field.bytes (field : Field) : Set ℕ := Set.Ico field.offset (field.offset + field.width)

namespace ByteMem

variable {left right : ByteMem} {known : Set ℕ}

theorem eqOn_writeBytes (agree : Set.EqOn left right known) (offset : ℕ) (bytes : List UInt8) :
    Set.EqOn (left.writeBytes offset bytes) (right.writeBytes offset bytes)
      (known ∪ Set.Ico offset (offset + bytes.length)) := by
  intro address inside
  by_cases stored : offset ≤ address ∧ address < offset + bytes.length
  · rcases Nat.exists_eq_add_of_le stored.1 with ⟨index, rfl⟩
    have index_lt : index < bytes.length := by omega
    rw [writeBytes_apply_add index_lt, writeBytes_apply_add index_lt]
  · have agreed : left address = right address := by
      rcases inside with inside | inside
      · exact agree inside
      · exact absurd inside stored
    simp only [writeBytes, agreed]

theorem eqOn_set (agree : Set.EqOn left right known) (field : Field) (value : ℕ) :
    Set.EqOn (left.set field value) (right.set field value) (known ∪ field.bytes) := by
  have written := eqOn_writeBytes agree field.offset (leBytes field.width value)
  rw [length_leBytes] at written
  exact written

theorem readBytes_eq_of_eqOn (agree : Set.EqOn left right known) {offset count : ℕ}
    (inside : Set.Ico offset (offset + count) ⊆ known) :
    left.readBytes offset count = right.readBytes offset count := by
  apply readBytes_congr
  intro index index_lt
  exact agree (inside ⟨by omega, by omega⟩)

theorem get_eq_of_eqOn (agree : Set.EqOn left right known) {field : Field}
    (inside : field.bytes ⊆ known) : left.get field = right.get field := by
  simp only [get, readBytes_eq_of_eqOn agree inside]

theorem getInt_eq_of_eqOn (agree : Set.EqOn left right known) {field : Field}
    (inside : field.bytes ⊆ known) : left.getInt field = right.getInt field := by
  simp only [getInt, get_eq_of_eqOn agree inside]

end ByteMem

/-- Two machines that agree on the bytes `known` of the page and on all the rest. -/
structure Paired {σ : Type} (same : σ → σ → Prop) (known : Set ℕ) (left right : Machine σ) :
    Prop where
  page : Set.EqOn left.page right.page known
  locked : left.locked = right.locked
  counter : left.counter = right.counter
  peer : same left.peer right.peer

namespace Paired

open Prog

variable {α σ : Type} {answer : σ → ByteMem → σ × ByteMem} {same : σ → σ → Prop}
  {fresh : Option (Machine σ) → ℕ → ℕ → Prop} {rung : Option (Machine σ)}
  {left right : Machine σ} {known known' : Set ℕ}
  {post : α → Option (Machine σ) → Machine σ → Machine σ → Prop}

theorem mono (paired : Paired same known left right) (fewer : known' ⊆ known) :
    Paired same known' left right :=
  ⟨paired.page.mono fewer, paired.locked, paired.counter, paired.peer⟩

theorem writing (paired : Paired same known left right) (offset : ℕ) (bytes : List UInt8) :
    Paired same (known ∪ Set.Ico offset (offset + bytes.length))
      { left with page := left.page.writeBytes offset bytes }
      { right with page := right.page.writeBytes offset bytes } :=
  ⟨ByteMem.eqOn_writeBytes paired.page offset bytes, paired.locked, paired.counter, paired.peer⟩

theorem setting (paired : Paired same known left right) (field : Field) (value : ℕ) :
    Paired same (known ∪ field.bytes) { left with page := left.page.set field value }
      { right with page := right.page.set field value } :=
  ⟨ByteMem.eqOn_set paired.page field value, paired.locked, paired.counter, paired.peer⟩

theorem acquire {next : Unit → Prog α} (paired : Paired same known left right)
    (rest : ∀ left' right', Paired same known left' right' →
      (next ()).Alike answer same fresh post rung left' right') :
    (Prog.acquire >>= next).Alike answer same fresh post rung left right :=
  ⟨paired.locked, fun _ => rest _ _ ⟨paired.page, rfl, paired.counter, paired.peer⟩⟩

theorem release {next : Unit → Prog α} (paired : Paired same known left right)
    (rest : ∀ left' right', Paired same known left' right' →
      (next ()).Alike answer same fresh post rung left' right') :
    (Prog.release >>= next).Alike answer same fresh post rung left right :=
  rest _ _ ⟨paired.page, rfl, paired.counter, paired.peer⟩

theorem storeBytes {next : Unit → Prog α} {offset : ℕ} {bytes : List UInt8}
    (paired : Paired same known left right)
    (rest : ∀ left' right',
      Paired same (known ∪ Set.Ico offset (offset + bytes.length)) left' right' →
        (next ()).Alike answer same fresh post rung left' right') :
    (Prog.storeBytes offset bytes >>= next).Alike answer same fresh post rung left right :=
  rest _ _ (paired.writing offset bytes)

theorem storeField {next : Unit → Prog α} {field : Field} {value : ℕ}
    (paired : Paired same known left right)
    (rest : ∀ left' right', Paired same (known ∪ field.bytes) left' right' →
      (next ()).Alike answer same fresh post rung left' right') :
    (Prog.storeField field value >>= next).Alike answer same fresh post rung left right :=
  rest _ _ (paired.setting field value)

theorem storeInt {next : Unit → Prog α} {field : Field} {value : ℤ}
    (paired : Paired same known left right)
    (rest : ∀ left' right', Paired same (known ∪ field.bytes) left' right' →
      (next ()).Alike answer same fresh post rung left' right') :
    (Prog.storeInt field value >>= next).Alike answer same fresh post rung left right :=
  paired.storeField rest

theorem loadBytes {next : List UInt8 → Prog α} {offset size : ℕ}
    (paired : Paired same known left right) (inside : Set.Ico offset (offset + size) ⊆ known)
    (isFresh : fresh rung offset size)
    (rest : (next (left.page.readBytes offset size)).Alike answer same fresh post rung left right) :
    (Prog.loadBytes offset size >>= next).Alike answer same fresh post rung left right :=
  ⟨isFresh, ByteMem.readBytes_eq_of_eqOn paired.page inside, rest⟩

/-- The length of a string whose bytes, with the null byte, are known. -/
theorem strlen {offset length limit : ℕ} (paired : Paired same known left right)
    (null : left.page (offset + length) = 0)
    (before : ∀ index < length, left.page (offset + index) ≠ 0) (within : length < limit)
    (inside : Set.Ico offset (offset + length + 1) ⊆ known)
    (isFresh : ∀ index ≤ length, fresh rung (offset + index) 1) :
    (Prog.strlen offset limit).Alike answer same fresh
      (fun value rung' left' right' =>
        value = length ∧ rung' = rung ∧ left' = left ∧ right' = right) rung left right := by
  induction length generalizing offset limit with
  | zero =>
      rcases Nat.exists_eq_add_one_of_ne_zero (show limit ≠ 0 by omega) with ⟨limit, rfl⟩
      refine paired.loadBytes inside (isFresh 0 le_rfl) ?_
      have byte : left.page.readBytes offset 1 = [0] := by
        rw [ByteMem.readBytes_succ, show left.page offset = 0 from null]
        rfl
      rw [if_pos byte]
      exact ⟨rfl, rfl, rfl, rfl⟩
  | succ length ih =>
      rcases Nat.exists_eq_add_one_of_ne_zero (show limit ≠ 0 by omega) with ⟨limit, rfl⟩
      refine paired.loadBytes (fun address first => inside ⟨first.1, ?_⟩)
        (isFresh 0 (Nat.zero_le _)) ?_
      · have first_lt := first.2
        omega
      have byte : left.page.readBytes offset 1 ≠ [0] := by
        have first := before 0 (Nat.succ_pos _)
        simpa [ByteMem.readBytes] using first
      rw [if_neg byte, alike_map]
      have shifted : ∀ index, offset + 1 + index = offset + (index + 1) := by omega
      refine (@ih (offset + 1) limit ?_ ?_ (by omega) ?_ ?_).imp ?_
      · rw [shifted]
        exact null
      · intro index index_lt
        rw [shifted]
        exact before (index + 1) (by omega)
      · intro address rest
        exact inside ⟨by have := rest.1; omega, by have := rest.2; omega⟩
      · intro index index_le
        rw [shifted]
        exact isFresh (index + 1) (by omega)
      · rintro value rung' left' right' ⟨rfl, rfl, rfl, rfl⟩
        exact ⟨rfl, rfl, rfl, rfl⟩

theorem loadField {next : ℕ → Prog α} {field : Field} (paired : Paired same known left right)
    (inside : field.bytes ⊆ known) (isFresh : fresh rung field.offset field.width)
    (rest : (next (left.page.get field)).Alike answer same fresh post rung left right) :
    (Prog.loadField field >>= next).Alike answer same fresh post rung left right :=
  ⟨isFresh, ByteMem.readBytes_eq_of_eqOn paired.page inside, rest⟩

theorem loadInt {next : ℤ → Prog α} {field : Field} (paired : Paired same known left right)
    (inside : field.bytes ⊆ known) (isFresh : fresh rung field.offset field.width)
    (rest : (next (left.page.getInt field)).Alike answer same fresh post rung left right) :
    (Prog.loadInt field >>= next).Alike answer same fresh post rung left right :=
  ⟨isFresh, ByteMem.readBytes_eq_of_eqOn paired.page inside, rest⟩

end Paired

-- the rules above are all that is used of the judgement
attribute [irreducible] Prog.Alike

end Acai
