import Mathlib.Data.List.Basic
import Mathlib.Tactic.IntervalCases

/-!
# Lines of hexadecimal text

The C library's formatted text, as far as programs use it that keep 64-bit words
in text files: `%lx` printed by `fprintf` and scanned by `sscanf`, and the lines
that `fgets` cuts from a file.

The main facts are the two round trips: what `%lx` has printed it scans again
when no digit follows (`scanHex_printHex`), and a line that fits into the buffer
comes back whole (`fgetsLines_line`).
-/

namespace Acai

/-! ## Hexadecimal numbers -/

def hexDigitValue (digit : Char) : Option ℕ :=
  if '0' ≤ digit ∧ digit ≤ '9' then some (digit.toNat - '0'.toNat)
  else if 'a' ≤ digit ∧ digit ≤ 'f' then some (digit.toNat - 'a'.toNat + 10)
  else if 'A' ≤ digit ∧ digit ≤ 'F' then some (digit.toNat - 'A'.toNat + 10)
  else none

def isSpace (char : Char) : Bool := char = ' ' ∨ 9 ≤ char.toNat ∧ char.toNat ≤ 13

/-- `%lx` of `fprintf`. -/
def printHex (value : UInt64) : List Char := Nat.toDigits 16 value.toNat

/-- Take up digits while there are any; `value` is the number read so far. -/
def scanDigits : ℕ → List Char → ℕ × List Char
  | value, [] => (value, [])
  | value, char :: input =>
      match hexDigitValue char with
      | some digit => scanDigits (16 * value + digit) input
      | none => (value, char :: input)

def scanSign : List Char → Bool × List Char
  | '+' :: input => (false, input)
  | '-' :: input => (true, input)
  | input => (false, input)

def dropHexMark : List Char → List Char
  | '0' :: 'x' :: input => input
  | '0' :: 'X' :: input => input
  | input => input

/-- `%lx` of `sscanf`: the value, and the input behind it. A number that does not fit gives the
greatest value. -/
def scanHex (input : List Char) : Option (UInt64 × List Char) :=
  let (negative, unsigned) := scanSign (input.dropWhile isSpace)
  let digits := dropHexMark unsigned
  let (value, rest) := scanDigits 0 digits
  if rest.length = digits.length then none
  else if 2 ^ 64 ≤ value then some (0xFFFFFFFFFFFFFFFF, rest)
  else some (if negative then -UInt64.ofNat value else UInt64.ofNat value, rest)

/-- The input does not continue a number. -/
def EndsNumber (input : List Char) : Prop :=
  ∀ char ∈ input.head?, hexDigitValue char = none ∧ char ≠ 'x' ∧ char ≠ 'X'

theorem hexDigitValue_digitChar {digit : ℕ} (digit_lt : digit < 16) :
    hexDigitValue digit.digitChar = some digit := by
  interval_cases digit <;> decide

theorem scanDigits_toDigits (value : ℕ) (rest : List Char) :
    scanDigits 0 (Nat.toDigits 16 value ++ rest) = scanDigits value rest := by
  induction value using Nat.strong_induction_on generalizing rest with
  | _ value ih =>
    rw [Nat.toDigits_eq_if (by decide)]
    split
    · rename_i small
      simp only [List.singleton_append, scanDigits, hexDigitValue_digitChar small, Nat.mul_zero,
        Nat.zero_add]
    · have last : value % 16 < 16 := Nat.mod_lt _ (by decide)
      rw [List.append_assoc, ih (value / 16) (by omega), List.singleton_append]
      simp only [scanDigits, hexDigitValue_digitChar last, Nat.div_add_mod]

theorem scanDigits_of_ends {rest : List Char} (value : ℕ) (ends : EndsNumber rest) :
    scanDigits value rest = (value, rest) := by
  cases rest with
  | nil => rfl
  | cons char rest => simp only [scanDigits, (ends char rfl).1]

theorem isDigit_of_mem_toDigits {value : ℕ} {char : Char}
    (char_mem : char ∈ Nat.toDigits 16 value) : ∃ digit < 16, char = digit.digitChar := by
  induction value using Nat.strong_induction_on with
  | _ value ih =>
    rw [Nat.toDigits_eq_if (by decide)] at char_mem
    split at char_mem
    · rename_i small
      exact ⟨value, small, List.mem_singleton.mp char_mem⟩
    · rcases List.mem_append.mp char_mem with front | last
      · exact ih (value / 16) (by omega) front
      · exact ⟨value % 16, Nat.mod_lt _ (by decide), List.mem_singleton.mp last⟩

theorem toDigits_chars {value : ℕ} {char : Char} (char_mem : char ∈ Nat.toDigits 16 value) :
    isSpace char = false ∧ char ≠ '+' ∧ char ≠ '-' ∧ char ≠ 'x' ∧ char ≠ 'X' ∧ char ≠ '\n' := by
  rcases isDigit_of_mem_toDigits char_mem with ⟨digit, digit_lt, rfl⟩
  interval_cases digit <;> decide

theorem dropHexMark_toDigits {value : ℕ} {rest : List Char} (ends : EndsNumber rest) :
    dropHexMark (Nat.toDigits 16 value ++ rest) = Nat.toDigits 16 value ++ rest := by
  have noMark : ∀ char ∈ (Nat.toDigits 16 value ++ rest).tail.head?, char ≠ 'x' ∧ char ≠ 'X' := by
    intro char char_head
    cases digits_eq : Nat.toDigits 16 value with
    | nil => exact absurd digits_eq Nat.toDigits_ne_nil
    | cons first digits =>
        rw [digits_eq, List.cons_append, List.tail_cons] at char_head
        cases digits with
        | nil => exact (ends char char_head).2
        | cons second digits =>
            have second_eq : second = char := by simpa using char_head
            have second_mem : char ∈ Nat.toDigits 16 value := by simp [digits_eq, second_eq]
            have chars := toDigits_chars second_mem
            exact ⟨chars.2.2.2.1, chars.2.2.2.2.1⟩
  generalize Nat.toDigits 16 value ++ rest = input at noMark
  unfold dropHexMark
  split
  · exact absurd rfl (noMark 'x' rfl).1
  · exact absurd rfl (noMark 'X' rfl).2
  · rfl

/-- A printed number is scanned again when nothing continues it. -/
theorem scanHex_printHex (value : UInt64) {rest : List Char} (ends : EndsNumber rest) :
    scanHex (printHex value ++ rest) = some (value, rest) := by
  have noSpace : (printHex value ++ rest).dropWhile isSpace = printHex value ++ rest := by
    rw [printHex]
    cases digits_eq : Nat.toDigits 16 value.toNat with
    | nil => exact absurd digits_eq Nat.toDigits_ne_nil
    | cons first digits =>
        have first_mem : first ∈ Nat.toDigits 16 value.toNat := by simp [digits_eq]
        simp only [List.cons_append, List.dropWhile_cons, (toDigits_chars first_mem).1,
          Bool.false_eq_true, ↓reduceIte]
  have noSign : scanSign (printHex value ++ rest) = (false, printHex value ++ rest) := by
    rw [printHex]
    cases digits_eq : Nat.toDigits 16 value.toNat with
    | nil => exact absurd digits_eq Nat.toDigits_ne_nil
    | cons first digits =>
        have first_mem : first ∈ Nat.toDigits 16 value.toNat := by simp [digits_eq]
        have chars := toDigits_chars first_mem
        rw [List.cons_append]
        unfold scanSign
        split
        · rename_i plus
          cases plus
          exact absurd rfl chars.2.1
        · rename_i minus
          cases minus
          exact absurd rfl chars.2.2.1
        · rfl
  have mark : dropHexMark (printHex value ++ rest) = printHex value ++ rest :=
    dropHexMark_toDigits ends
  have digits : scanDigits 0 (printHex value ++ rest) = (value.toNat, rest) := by
    rw [printHex, scanDigits_toDigits, scanDigits_of_ends _ ends]
  have consumed : rest.length ≠ (printHex value ++ rest).length := by
    have pos : 0 < (printHex value).length := Nat.length_toDigits_pos
    rw [List.length_append]
    omega
  simp only [scanHex, noSpace, noSign, mark, digits, consumed, ↓reduceIte,
    not_le.mpr value.toNat_lt, UInt64.ofNat_toNat, Bool.false_eq_true]

theorem length_printHex_le (value : UInt64) : (printHex value).length ≤ 16 :=
  (Nat.length_toDigits_le_iff (by decide) (by decide)).mpr value.toNat_lt

theorem newline_notMem_printHex (value : UInt64) : '\n' ∉ printHex value := by
  intro newline_mem
  exact absurd rfl (toDigits_chars newline_mem).2.2.2.2.2

/-! ## Lines -/

/-- The successive results of `fgets` with a buffer of `size` characters; `line` is what the
current call has read so far. -/
def fgetsLines (size : ℕ) : List Char → List Char → List (List Char)
  | [], [] => []
  | char :: line, [] => [char :: line]
  | line, char :: input =>
      if char = '\n' ∨ line.length + 2 = size then (line ++ [char]) :: fgetsLines size [] input
      else fgetsLines size (line ++ [char]) input

theorem fgetsLines_line {size : ℕ} (line : List Char) {text : List Char} (rest : List Char)
    (noNewline : '\n' ∉ text) (fits : line.length + text.length + 2 ≤ size) :
    fgetsLines size line (text ++ '\n' :: rest) =
      (line ++ text ++ ['\n']) :: fgetsLines size [] rest := by
  induction text generalizing line with
  | nil => simp [fgetsLines]
  | cons char text ih =>
      rw [List.mem_cons, not_or] at noNewline
      rw [List.length_cons] at fits
      have goesOn : ¬(char = '\n' ∨ line.length + 2 = size) := by
        rintro (newline | full)
        · exact noNewline.1 newline.symm
        · omega
      have rest_eq := ih (line ++ [char]) noNewline.2 (by simp; omega)
      simp only [List.cons_append, fgetsLines, goesOn, ↓reduceIte, rest_eq]
      simp

end Acai
