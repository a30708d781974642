import Mathlib.Algebra.Group.Nat.Defs
import Mathlib.Data.Fintype.EquivFin
import Mathlib.Data.Set.Basic

/-!
# Ranges of words

A range of addresses is given by its start and its length, and wraps around at the end
of the address space. This file cuts a range into blocks of one size, and shows when
the ranges of aligned starts can go on for ever: if the address one block behind each
start is a start again, then the starts are all around the address space.
-/

namespace Acai

/-- The addresses less than `len` behind `start`. -/
def wordRange (start len : UInt64) : Set UInt64 := { addr | addr - start < len }

instance (start len addr : UInt64) : Decidable (addr ∈ wordRange start len) :=
  inferInstanceAs (Decidable (addr - start < len))

namespace WordRange

/-- The address `index` blocks behind `start`. -/
def block (size : ℕ) (start : UInt64) (index : ℕ) : UInt64 := start + UInt64.ofNat (size * index)

variable {size : ℕ} {start len addr : UInt64}

theorem mem_iff : addr ∈ wordRange start len ↔ (addr - start).toNat < len.toNat :=
  UInt64.lt_iff_toNat_lt

theorem add_mem_iff {offset : UInt64} : start + offset ∈ wordRange start len ↔ offset < len := by
  rw [UInt64.add_comm]
  exact iff_of_eq (congrArg (· < len) (UInt64.add_sub_cancel offset start))

theorem start_mem (nonempty : 0 < len) : start ∈ wordRange start len := by
  rw [mem_iff, UInt64.sub_self]
  exact UInt64.lt_iff_toNat_lt.mp nonempty

theorem notMem_empty : addr ∉ wordRange start 0 := UInt64.not_lt_zero

theorem mono {longer : UInt64} (le : len ≤ longer) :
    wordRange start len ⊆ wordRange start longer :=
  fun _ inside => UInt64.lt_of_lt_of_le inside le

/-- The address right before the start is in no range, however long. -/
theorem before_notMem : start - 1 ∉ wordRange start len := by
  have start_lt := start.toNat_lt
  have len_lt := len.toNat_lt
  have one : (1 : UInt64).toNat = 1 := rfl
  rw [mem_iff, UInt64.toNat_sub, UInt64.toNat_sub, one]
  omega

theorem block_zero : block size start 0 = start := by
  rw [block, Nat.mul_zero]
  exact UInt64.add_zero _

theorem block_succ (index : ℕ) :
    block size start (index + 1) = block size start index + UInt64.ofNat size := by
  rw [block, block, Nat.mul_succ, UInt64.ofNat_add, UInt64.add_assoc]

theorem toNat_sub_block {index : ℕ} (le : size * index ≤ (addr - start).toNat) :
    (addr - block size start index).toNat = (addr - start).toNat - size * index := by
  have addr_lt := addr.toNat_lt
  have start_lt := start.toNat_lt
  rw [UInt64.toNat_sub] at le
  rw [block, UInt64.toNat_sub, UInt64.toNat_sub, UInt64.toNat_add, UInt64.toNat_ofNat']
  omega

theorem toNat_sub_eq (size : ℕ) (start addr : UInt64) (index : ℕ) :
    (addr - start).toNat =
      ((addr - block size start index).toNat + size * index) % 2 ^ 64 := by
  have addr_lt := addr.toNat_lt
  have start_lt := start.toNat_lt
  rw [block, UInt64.toNat_sub, UInt64.toNat_sub, UInt64.toNat_add, UInt64.toNat_ofNat']
  omega

/-- Every address lies in the block that its distance from the start gives. -/
theorem mem_block (size_pos : 0 < size) (size_lt : size < 2 ^ 64) (start addr : UInt64) :
    addr ∈ wordRange (block size start ((addr - start).toNat / size)) (UInt64.ofNat size) := by
  have rest := Nat.mod_add_div (addr - start).toNat size
  have rest_lt := Nat.mod_lt (addr - start).toNat size_pos
  rw [mem_iff, toNat_sub_block (Nat.mul_div_le _ _), UInt64.toNat_ofNat',
    Nat.mod_eq_of_lt size_lt]
  omega

/-- A range of `count` blocks that does not wrap around is made up of them. -/
theorem mem_blocks_iff (size_pos : 0 < size) {count : ℕ} (fits : size * count < 2 ^ 64) :
    addr ∈ wordRange start (UInt64.ofNat (size * count)) ↔
      ∃ index < count, addr ∈ wordRange (block size start index) (UInt64.ofNat size) := by
  rw [mem_iff, UInt64.toNat_ofNat', Nat.mod_eq_of_lt fits]
  constructor
  · intro inside
    have index_lt : (addr - start).toNat / size < count := Nat.div_lt_of_lt_mul inside
    have size_lt : size < 2 ^ 64 :=
      (Nat.le_mul_of_pos_right size (Nat.zero_lt_of_lt index_lt)).trans_lt fits
    exact ⟨_, index_lt, mem_block size_pos size_lt start addr⟩
  · rintro ⟨index, index_lt, inside⟩
    have upTo : size * index + size ≤ size * count := by
      rw [← Nat.mul_succ]
      exact Nat.mul_le_mul_left size index_lt
    rw [mem_iff, UInt64.toNat_ofNat', Nat.mod_eq_of_lt (by omega)] at inside
    rw [toNat_sub_eq size start addr index, Nat.mod_eq_of_lt (by omega)]
    omega

theorem dvd_toNat_add (whole : size ∣ 2 ^ 64) (aligned : size ∣ start.toNat) :
    size ∣ (start + UInt64.ofNat size).toNat := by
  rw [UInt64.toNat_add, UInt64.toNat_ofNat', Nat.dvd_mod_iff whole]
  exact Nat.dvd_add aligned ((Nat.dvd_mod_iff whole).mpr (Nat.dvd_refl size))

theorem dvd_toNat_block (whole : size ∣ 2 ^ 64) (aligned : size ∣ start.toNat) (index : ℕ) :
    size ∣ (block size start index).toNat := by
  induction index with
  | zero => rwa [block_zero]
  | succ index ih =>
      rw [block_succ]
      exact dvd_toNat_add whole ih

/-- Aligned addresses lie apart by at least one block. -/
theorem eq_of_mem_of_aligned (whole : size ∣ 2 ^ 64) (size_lt : size < 2 ^ 64)
    (aligned : size ∣ start.toNat) (aligned' : size ∣ addr.toNat)
    (inside : addr ∈ wordRange start (UInt64.ofNat size)) : addr = start := by
  rw [mem_iff, UInt64.toNat_ofNat', Nat.mod_eq_of_lt size_lt] at inside
  have distance : size ∣ (addr - start).toNat := by
    rw [UInt64.toNat_sub]
    exact (Nat.dvd_mod_iff whole).mpr
      (Nat.dvd_add (Nat.dvd_sub whole aligned) aligned')
  have none := Nat.eq_zero_of_dvd_of_lt distance inside
  have same : addr - start = 0 := UInt64.toNat_inj.mp none
  exact (UInt64.sub_eq_iff_eq_add.mp same).trans (UInt64.zero_add start)

/-- From any start, the starts that go on for ever are all around the address space. -/
theorem block_mem_of_closed {starts : Set UInt64} (first : start ∈ starts)
    (closed : ∀ addr ∈ starts, addr + UInt64.ofNat size ∈ starts) (index : ℕ) :
    block size start index ∈ starts := by
  induction index with
  | zero =>
      rw [block_zero]
      exact first
  | succ index ih =>
      rw [block_succ]
      exact closed _ ih

theorem block_inj (size_pos : 0 < size) {index other : ℕ} (lt : size * index < 2 ^ 64)
    (other_lt : size * other < 2 ^ 64) (same : block size start index = block size start other) :
    index = other := by
  have offsets := congrArg UInt64.toNat ((UInt64.add_right_inj start).mp same)
  rw [UInt64.toNat_ofNat', UInt64.toNat_ofNat', Nat.mod_eq_of_lt lt,
    Nat.mod_eq_of_lt other_lt] at offsets
  exact Nat.eq_of_mul_eq_mul_left size_pos offsets

/-- It takes as many starts as there are blocks to be all around the address space. -/
theorem le_of_all_blocks {total count : ℕ} (whole : size * total = 2 ^ 64) {starts : ℕ → UInt64}
    (all : ∀ index < total, ∃ number < count, starts number = block size start index) :
    total ≤ count := by
  have size_pos : 0 < size := Nat.pos_of_ne_zero fun none => by
    rw [none, Nat.zero_mul] at whole
    cases whole
  choose number number_lt starts_eq using all
  have lt : ∀ index : Fin total, size * index < 2 ^ 64 := fun index =>
    whole ▸ Nat.mul_lt_mul_of_pos_left index.2 size_pos
  have injective : Function.Injective fun index : Fin total =>
      (⟨number index index.2, number_lt index index.2⟩ : Fin count) := by
    intro index other same
    have numbers : number index index.2 = number other other.2 := congrArg Fin.val same
    have blocks : block size start index = block size start other := by
      rw [← starts_eq index index.2, ← starts_eq other other.2, numbers]
    exact Fin.ext (block_inj size_pos (lt index) (lt other) blocks)
  simpa using Fintype.card_le_of_injective _ injective

end WordRange

end Acai
