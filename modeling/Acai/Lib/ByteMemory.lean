import Mathlib.Data.List.Basic
import Mathlib.Data.Nat.Digits.Defs
import Mathlib.Tactic.Ring

/-!
# Byte-addressed memory with packed little-endian fields

This file gives a total byte memory and the accesses that C code makes to a
packed structure laid over it: fixed-width unsigned and signed fields, and byte
blocks copied by `memcpy`.

Every store goes through `ByteMem.writeBytes`, and every load through
`ByteMem.readBytes`; a field is the block of its little-endian bytes. The frame
lemmas are therefore proved once, for blocks, and the field lemmas follow from
the decoding of a block of bytes. Two structures laid over the same bytes share
them, as the members of a C union do.
-/

namespace Acai

/-- The little-endian bytes of a number, truncated to `width` bytes. -/
def leBytes : ℕ → ℕ → List UInt8
  | 0, _ => []
  | width + 1, value => UInt8.ofNat value :: leBytes width (value / 256)

def ofLE : List UInt8 → ℕ
  | [] => 0
  | byte :: bytes => byte.toNat + 256 * ofLE bytes

@[simp]
theorem length_leBytes (width value : ℕ) : (leBytes width value).length = width := by
  induction width generalizing value with
  | zero => rfl
  | succ width ih => simp [leBytes, ih]

theorem ofLE_leBytes (width value : ℕ) : ofLE (leBytes width value) = value % 256 ^ width := by
  induction width generalizing value with
  | zero => simp [leBytes, ofLE, Nat.mod_one]
  | succ width ih =>
      have low : (UInt8.ofNat value).toNat = value % 256 := UInt8.toNat_ofNat'
      simp only [leBytes, ofLE, ih, low]
      exact (Nat.mod_mul.symm.trans (by rw [pow_succ']))

theorem ofLE_lt (bytes : List UInt8) : ofLE bytes < 256 ^ bytes.length := by
  induction bytes with
  | nil => simp [ofLE]
  | cons byte bytes ih =>
      have byte_lt : byte.toNat < 256 := byte.toNat_lt
      simp only [ofLE, List.length_cons, pow_succ']
      omega

theorem eq_of_ofLE_eq {left right : List UInt8} (length : left.length = right.length)
    (same : ofLE left = ofLE right) : left = right := by
  induction left generalizing right with
  | nil => exact (List.length_eq_zero_iff.mp length.symm).symm
  | cons byte bytes ih =>
      cases right with
      | nil => cases length
      | cons byte' bytes' =>
          have byte_lt : byte.toNat < 256 := byte.toNat_lt
          have byte_lt' : byte'.toNat < 256 := byte'.toNat_lt
          simp only [ofLE] at same
          have low : byte = byte' := UInt8.toNat_inj.mp (by omega)
          have high : ofLE bytes = ofLE bytes' := by omega
          rw [low, ih (Nat.succ.inj length) high]

/-- A field of a packed structure: its first byte and its size in bytes. -/
structure Field where
  offset : ℕ
  width : ℕ
  deriving DecidableEq

def Field.Disjoint (left right : Field) : Prop :=
  left.offset + left.width ≤ right.offset ∨ right.offset + right.width ≤ left.offset

instance (left right : Field) : Decidable (left.Disjoint right) :=
  inferInstanceAs (Decidable (_ ∨ _))

/-- A byte memory, addressed from its first byte. -/
def ByteMem := ℕ → UInt8

namespace ByteMem

def zero : ByteMem := fun _ => 0

def readBytes (mem : ByteMem) (offset count : ℕ) : List UInt8 :=
  (List.range count).map fun index => mem (offset + index)

def writeBytes (mem : ByteMem) (offset : ℕ) (bytes : List UInt8) : ByteMem := fun address =>
  if offset ≤ address then (bytes[address - offset]?).getD (mem address) else mem address

def get (mem : ByteMem) (field : Field) : ℕ := ofLE (mem.readBytes field.offset field.width)

def set (mem : ByteMem) (field : Field) (value : ℕ) : ByteMem :=
  mem.writeBytes field.offset (leBytes field.width value)

/-- The two's complement number in a field. -/
def getInt (mem : ByteMem) (field : Field) : ℤ := Int.bmod (mem.get field) (256 ^ field.width)

def setInt (mem : ByteMem) (field : Field) (value : ℤ) : ByteMem :=
  mem.set field (value % 256 ^ field.width).toNat

@[ext]
theorem ext {left right : ByteMem} (agree : ∀ address, left address = right address) :
    left = right :=
  funext agree

theorem writeBytes_apply_of_lt {mem : ByteMem} {offset address : ℕ} {bytes : List UInt8}
    (before : address < offset) : mem.writeBytes offset bytes address = mem address := by
  simp [writeBytes, show ¬offset ≤ address by omega]

theorem writeBytes_apply_of_ge {mem : ByteMem} {offset address : ℕ} {bytes : List UInt8}
    (after : offset + bytes.length ≤ address) :
    mem.writeBytes offset bytes address = mem address := by
  have outside : bytes.length ≤ address - offset := by omega
  simp [writeBytes, List.getElem?_eq_none outside]

theorem writeBytes_apply_add {mem : ByteMem} {offset index : ℕ} {bytes : List UInt8}
    (inside : index < bytes.length) :
    mem.writeBytes offset bytes (offset + index) = bytes[index] := by
  simp [writeBytes, List.getElem?_eq_getElem inside]

@[simp]
theorem length_readBytes (mem : ByteMem) (offset count : ℕ) :
    (mem.readBytes offset count).length = count := by
  simp [readBytes]

theorem getElem_readBytes (mem : ByteMem) (offset count index : ℕ)
    (inside : index < (mem.readBytes offset count).length) :
    (mem.readBytes offset count)[index] = mem (offset + index) := by
  simp [readBytes]

theorem readBytes_congr {left right : ByteMem} {offset count : ℕ}
    (agree : ∀ index < count, left (offset + index) = right (offset + index)) :
    left.readBytes offset count = right.readBytes offset count := by
  apply List.map_congr_left
  intro index index_mem
  exact agree index (List.mem_range.mp index_mem)

theorem readBytes_add (mem : ByteMem) (offset first second : ℕ) :
    mem.readBytes offset (first + second) =
      mem.readBytes offset first ++ mem.readBytes (offset + first) second := by
  simp [readBytes, List.range_add, Nat.add_assoc]

theorem readBytes_succ (mem : ByteMem) (offset count : ℕ) :
    mem.readBytes offset (count + 1) = mem offset :: mem.readBytes (offset + 1) count := by
  rw [Nat.add_comm, readBytes_add]
  rfl

theorem readBytes_writeBytes_of_disjoint {mem : ByteMem} {offset offset' count : ℕ}
    {bytes : List UInt8} (disjoint : Field.Disjoint ⟨offset, bytes.length⟩ ⟨offset', count⟩) :
    (mem.writeBytes offset bytes).readBytes offset' count = mem.readBytes offset' count := by
  apply readBytes_congr
  intro index index_lt
  simp only [Field.Disjoint] at disjoint
  rcases disjoint with after | before
  · exact writeBytes_apply_of_ge (by omega)
  · exact writeBytes_apply_of_lt (by omega)

/-- A block inside the written range is read back from the written bytes. -/
theorem readBytes_writeBytes_within {mem : ByteMem} {offset start count : ℕ}
    {bytes : List UInt8} (inside : start + count ≤ bytes.length) :
    (mem.writeBytes offset bytes).readBytes (offset + start) count =
      (bytes.drop start).take count := by
  apply List.ext_getElem
  · simp
    omega
  · intro index index_lt _
    have index_lt_count : index < count := by simpa using index_lt
    rw [getElem_readBytes, Nat.add_assoc, writeBytes_apply_add (by omega)]
    simp

@[simp]
theorem readBytes_writeBytes_same (mem : ByteMem) (offset : ℕ) (bytes : List UInt8) :
    (mem.writeBytes offset bytes).readBytes offset bytes.length = bytes := by
  simpa using @readBytes_writeBytes_within mem offset 0 bytes.length bytes (by omega)

theorem set_apply_of_ge {mem : ByteMem} {field : Field} {value address : ℕ}
    (after : field.offset + field.width ≤ address) : mem.set field value address = mem address := by
  apply writeBytes_apply_of_ge
  simpa using after

theorem get_lt (mem : ByteMem) (field : Field) : mem.get field < 256 ^ field.width := by
  simpa [get] using ofLE_lt (mem.readBytes field.offset field.width)

theorem get_congr {left right : ByteMem} {field : Field}
    (agree : ∀ index < field.width, left (field.offset + index) = right (field.offset + index)) :
    left.get field = right.get field := by
  simp only [get, readBytes_congr agree]

/-- Two fields of one width hold the same number exactly when they hold the same bytes. -/
theorem get_eq_get_iff {left right : ByteMem} {offset offset' width : ℕ} :
    left.get ⟨offset, width⟩ = right.get ⟨offset', width⟩ ↔
      ∀ index < width, left (offset + index) = right (offset' + index) := by
  have bytes : left.get ⟨offset, width⟩ = right.get ⟨offset', width⟩ ↔
      left.readBytes offset width = right.readBytes offset' width := by
    constructor
    · exact eq_of_ofLE_eq (by simp)
    · exact congrArg ofLE
  rw [bytes, readBytes, readBytes, List.map_inj_left]
  simp

theorem get_writeBytes_of_disjoint {mem : ByteMem} {offset : ℕ} {bytes : List UInt8}
    {field : Field} (disjoint : Field.Disjoint ⟨offset, bytes.length⟩ field) :
    (mem.writeBytes offset bytes).get field = mem.get field := by
  simp only [get, readBytes_writeBytes_of_disjoint disjoint]

theorem get_set_of_disjoint {mem : ByteMem} {field field' : Field} {value : ℕ}
    (disjoint : field.Disjoint field') : (mem.set field value).get field' = mem.get field' := by
  apply get_writeBytes_of_disjoint
  simpa using disjoint

theorem get_setInt_of_disjoint {mem : ByteMem} {field field' : Field} {value : ℤ}
    (disjoint : field.Disjoint field') : (mem.setInt field value).get field' = mem.get field' :=
  get_set_of_disjoint disjoint

theorem readBytes_set_of_disjoint {mem : ByteMem} {field : Field} {value offset count : ℕ}
    (disjoint : field.Disjoint ⟨offset, count⟩) :
    (mem.set field value).readBytes offset count = mem.readBytes offset count := by
  apply readBytes_writeBytes_of_disjoint
  simpa using disjoint

@[simp]
theorem get_set_same (mem : ByteMem) (field : Field) (value : ℕ) :
    (mem.set field value).get field = value % 256 ^ field.width := by
  have block : (mem.set field value).readBytes field.offset field.width =
      leBytes field.width value := by
    simpa [set] using readBytes_writeBytes_same mem field.offset (leBytes field.width value)
  rw [get, block, ofLE_leBytes]

theorem getInt_set_of_disjoint {mem : ByteMem} {field field' : Field} {value : ℕ}
    (disjoint : field.Disjoint field') :
    (mem.set field value).getInt field' = mem.getInt field' := by
  simp only [getInt, get_set_of_disjoint disjoint]

theorem getInt_setInt_of_disjoint {mem : ByteMem} {field field' : Field} {value : ℤ}
    (disjoint : field.Disjoint field') :
    (mem.setInt field value).getInt field' = mem.getInt field' :=
  getInt_set_of_disjoint disjoint

theorem getInt_setInt_same (mem : ByteMem) (field : Field) (value : ℤ) :
    (mem.setInt field value).getInt field = Int.bmod value (256 ^ field.width) := by
  have modulus_pos : (0 : ℤ) < 256 ^ field.width := by positivity
  have nonneg : 0 ≤ value % 256 ^ field.width := Int.emod_nonneg _ modulus_pos.ne'
  simp only [getInt, setInt, get_set_same]
  push_cast
  rw [Int.toNat_of_nonneg nonneg, Int.emod_emod_of_dvd _ dvd_rfl]
  simpa using @Int.emod_bmod value (256 ^ field.width)

end ByteMem

end Acai
