import Acai.Lib.ByteMemory
import Mathlib.Data.Set.Function

/-!
# Copies of byte blocks

A copy takes a block of bytes from a place of one memory to a place of another,
and a list of copies is made one after another. Where the copies agree on the
byte that comes to a place, this byte is there in the end; where no copy comes to,
everything stays as it was.

The bytes of a sequence that is kept in blocks of one size lie, in each block,
behind the base of that block. Copies that follow this layout bring a sequence into
its blocks and, with source and destination swapped, back again.
-/

namespace Acai

structure ByteCopy where
  source : ℕ
  dest : ℕ
  count : ℕ
  deriving DecidableEq

namespace ByteCopy

/-- The copy takes the byte at `source` to `dest`. -/
def Carries (copy : ByteCopy) (source dest : ℕ) : Prop :=
  ∃ index < copy.count, source = copy.source + index ∧ dest = copy.dest + index

/-- The copy in the other direction. -/
def swap (copy : ByteCopy) : ByteCopy := ⟨copy.dest, copy.source, copy.count⟩

theorem carries_swap {copy : ByteCopy} {source dest : ℕ} :
    copy.swap.Carries source dest ↔ copy.Carries dest source := by
  simp only [Carries, swap, and_comm]

def apply (source : ByteMem) (dest : ByteMem) (copy : ByteCopy) : ByteMem :=
  dest.writeBytes copy.dest (source.readBytes copy.source copy.count)

/-- The destination after some copies from the source. -/
def run (source dest : ByteMem) (copies : List ByteCopy) : ByteMem :=
  copies.foldl (apply source) dest

theorem apply_of_carries {source dest : ByteMem} {copy : ByteCopy} {origin address : ℕ}
    (carries : copy.Carries origin address) : apply source dest copy address = source origin := by
  rcases carries with ⟨index, inside, rfl, rfl⟩
  rw [apply, ByteMem.writeBytes_apply_add (by simpa using inside), ByteMem.getElem_readBytes]

theorem apply_of_not_carries {source dest : ByteMem} {copy : ByteCopy} {address : ℕ}
    (untouched : ∀ origin, ¬copy.Carries origin address) :
    apply source dest copy address = dest address := by
  by_cases before : address < copy.dest
  · exact ByteMem.writeBytes_apply_of_lt before
  · apply ByteMem.writeBytes_apply_of_ge
    rw [ByteMem.length_readBytes]
    by_contra inside
    exact untouched (copy.source + (address - copy.dest))
      ⟨address - copy.dest, by omega, rfl, by omega⟩

variable (source : ByteMem) {dest : ByteMem} {copies : List ByteCopy}

theorem run_of_not_carries {address : ℕ}
    (untouched : ∀ copy ∈ copies, ∀ origin, ¬copy.Carries origin address) :
    run source dest copies address = dest address := by
  induction copies generalizing dest with
  | nil => rfl
  | cons copy copies ih =>
      rw [List.forall_mem_cons] at untouched
      exact (ih untouched.2).trans (apply_of_not_carries untouched.1)

/-- The copies that come to a place all take the byte of one origin there. -/
theorem run_of_carries {origin address : ℕ}
    (agree : ∀ copy ∈ copies, ∀ other, copy.Carries other address → other = origin)
    (carried : ∃ copy ∈ copies, copy.Carries origin address) :
    run source dest copies address = source origin := by
  induction copies generalizing dest with
  | nil =>
      rcases carried with ⟨copy, inside, -⟩
      cases inside
  | cons copy copies ih =>
      rw [List.forall_mem_cons] at agree
      by_cases later : ∃ copy ∈ copies, copy.Carries origin address
      · exact ih agree.2 later
      · -- this copy is the last one that comes to the place
        have now : copy.Carries origin address := by
          rcases carried with ⟨other, inside, carries⟩
          rcases List.mem_cons.1 inside with rfl | inside
          · exact carries
          · exact absurd ⟨other, inside, carries⟩ later
        have kept : run source (apply source dest copy) copies address =
            apply source dest copy address := by
          apply run_of_not_carries
          intro other isLater origin' carries
          obtain rfl := agree.2 other isLater origin' carries
          exact later ⟨other, isLater, carries⟩
        exact kept.trans (apply_of_carries now)

end ByteCopy

/-! ## Sequences in blocks -/

namespace BlockLayout

variable (size : ℕ) (base : ℕ → ℕ)

/-- The place of a byte of the sequence that is kept in the blocks at `base`. -/
def place (byte : ℕ) : ℕ := base (byte / size) + byte % size

variable {size base}

theorem place_add {index rest : ℕ} (inside : rest < size) :
    place size base (size * index + rest) = base index + rest := by
  rw [place, Nat.mul_add_mod, Nat.mod_eq_of_lt inside, Nat.mul_add_div (by omega),
    Nat.div_eq_of_lt inside, Nat.add_zero]

theorem place_injOn {count : ℕ} (aligned : ∀ index < count, size ∣ base index)
    (distinct : Set.InjOn base {index | index < count}) :
    Set.InjOn (place size base) {byte | byte < size * count} := by
  intro byte inside byte' inside' same
  have size_pos : 0 < size := Nat.pos_of_mul_pos_right (Nat.zero_lt_of_lt inside)
  have block : byte / size < count := Nat.div_lt_of_lt_mul inside
  have block' : byte' / size < count := Nat.div_lt_of_lt_mul inside'
  have rest := Nat.mod_lt byte size_pos
  have rest' := Nat.mod_lt byte' size_pos
  rcases aligned _ block with ⟨first, base_eq⟩
  rcases aligned _ block' with ⟨first', base_eq'⟩
  simp only [place, base_eq, base_eq'] at same
  have sameFirst : first = first' := by
    have quotient := congrArg (· / size) same
    simpa only [Nat.mul_add_div size_pos, Nat.div_eq_of_lt rest, Nat.div_eq_of_lt rest',
      Nat.add_zero] using quotient
  have sameBlock : byte / size = byte' / size :=
    distinct block block' (by rw [base_eq, base_eq', sameFirst])
  have sameRest : byte % size = byte' % size := by
    rw [sameFirst] at same
    exact Nat.add_left_cancel same
  rw [← Nat.div_add_mod byte size, ← Nat.div_add_mod byte' size, sameBlock, sameRest]

/-- Copies out of the blocks take no byte of the sequence but the first `length` ones, and each of
them from its place. -/
def Follows (layout : ℕ → ℕ) (length : ℕ) (copies : List ByteCopy) : Prop :=
  ∀ copy ∈ copies, ∀ address byte, copy.Carries address byte →
    byte < length ∧ address = layout byte

/-- Every one of the first `length` bytes is taken from its place. -/
def Covers (layout : ℕ → ℕ) (length : ℕ) (copies : List ByteCopy) : Prop :=
  ∀ byte < length, ∃ copy ∈ copies, copy.Carries (layout byte) byte

section Directions

variable {layout : ℕ → ℕ} {length : ℕ} {copies : List ByteCopy} {sequence blocks : ByteMem}

/-- Gathering: the sequence is read from its blocks. -/
theorem gather_apply (follows : Follows layout length copies)
    (covers : Covers layout length copies) {byte : ℕ} (inside : byte < length) :
    ByteCopy.run blocks sequence copies byte = blocks (layout byte) := by
  refine ByteCopy.run_of_carries blocks ?_ (covers byte inside)
  intro copy member origin carries
  exact (follows copy member origin byte carries).2

/-- Scattering: the sequence is written to its blocks, which do not overlap. -/
theorem scatter_apply (follows : Follows layout length copies)
    (covers : Covers layout length copies) (apart : Set.InjOn layout {byte | byte < length})
    {byte : ℕ} (inside : byte < length) :
    ByteCopy.run sequence blocks (copies.map .swap) (layout byte) = sequence byte := by
  apply ByteCopy.run_of_carries sequence
  · intro swapped member origin carries
    rcases List.mem_map.1 member with ⟨copy, isCopy, rfl⟩
    have followed := follows copy isCopy _ _ (ByteCopy.carries_swap.1 carries)
    exact apart followed.1 inside followed.2.symm
  · rcases covers byte inside with ⟨copy, member, carries⟩
    exact ⟨copy.swap, List.mem_map_of_mem member, ByteCopy.carries_swap.2 carries⟩

theorem scatter_of_outside (follows : Follows layout length copies) {address : ℕ}
    (outside : ∀ byte < length, address ≠ layout byte) :
    ByteCopy.run sequence blocks (copies.map .swap) address = blocks address := by
  apply ByteCopy.run_of_not_carries sequence
  intro swapped member origin carries
  rcases List.mem_map.1 member with ⟨copy, isCopy, rfl⟩
  have followed := follows copy isCopy _ _ (ByteCopy.carries_swap.1 carries)
  exact outside origin followed.1 followed.2

end Directions

end BlockLayout

end Acai
