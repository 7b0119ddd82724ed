import Mathlib.Algebra.Ring.Nat
import Mathlib.Data.List.TakeWhile

/-!
# Printing and scanning decimal numbers

The conversions `%llu` and `%d` of `printf` and `scanf`.  A printed number is
scanned back from any text that does not go on with a digit.
-/

namespace Dlm.Scan

def printNat (value : Nat) : List Char := Nat.toDigits 10 value

def printInt : Int → List Char
  | .ofNat value => printNat value
  | .negSucc value => '-' :: printNat (value + 1)

/-- The longest run of digits and the text after it. -/
def scanNat (text : List Char) : Option (Nat × List Char) :=
  match text.takeWhile Char.isDigit with
  | [] => none
  | digits =>
      some (Nat.ofDigitChars 10 digits 0, text.dropWhile Char.isDigit)

/-- A number with white space and a sign in front of it. -/
def scanInt (text : List Char) : Option (Int × List Char) :=
  match text.dropWhile Char.isWhitespace with
  | '-' :: rest => (scanNat rest).map fun found => (-(found.1 : Int), found.2)
  | '+' :: rest => (scanNat rest).map fun found => ((found.1 : Int), found.2)
  | rest => (scanNat rest).map fun found => ((found.1 : Int), found.2)

/-- The text does not go on with a digit. -/
def NoDigit (rest : List Char) : Prop :=
  ∀ char ∈ rest.head?, char.isDigit = false

theorem isDigit_of_mem_printNat {value : Nat} {char : Char}
    (member : char ∈ printNat value) : char.isDigit = true :=
  Nat.isDigit_of_mem_toDigits (by decide) (by decide) member

theorem takeWhile_of_noDigit {rest : List Char} (stops : NoDigit rest) :
    rest.takeWhile Char.isDigit = [] ∧ rest.dropWhile Char.isDigit = rest := by
  cases rest with
  | nil => simp
  | cons char later =>
      have notDigit := stops char (by simp)
      simp [notDigit]

theorem scanNat_printNat (value : Nat) (rest : List Char)
    (stops : NoDigit rest) :
    scanNat (printNat value ++ rest) = some (value, rest) := by
  have digits : ∀ char ∈ printNat value, char.isDigit = true :=
    fun char member => isDigit_of_mem_printNat member
  have taken : (printNat value ++ rest).takeWhile Char.isDigit =
      printNat value := by
    rw [List.takeWhile_append_of_pos digits, (takeWhile_of_noDigit stops).1,
      List.append_nil]
  have dropped : (printNat value ++ rest).dropWhile Char.isDigit = rest := by
    rw [List.dropWhile_append_of_pos digits, (takeWhile_of_noDigit stops).2]
  rw [scanNat, taken, dropped]
  cases printed : printNat value with
  | nil => exact absurd printed Nat.toDigits_ne_nil
  | cons char later =>
      simp only [Option.some.injEq, Prod.mk.injEq, and_true]
      rw [← printed]
      exact Nat.ofDigitChars_ten_toDigits

/-- A digit is neither white space nor a sign. -/
theorem scanInt_of_digit {char : Char} {later : List Char}
    (digit : char.isDigit = true) :
    scanInt (char :: later) =
      (scanNat (char :: later)).map fun found => ((found.1 : Int), found.2) := by
  have notSpace : char.isWhitespace = false := by
    cases space : char.isWhitespace with
    | false => rfl
    | true =>
        simp only [Char.isWhitespace, Bool.or_eq_true, decide_eq_true_eq]
          at space
        rcases space with ((rfl | rfl) | rfl) | rfl <;>
          exact absurd digit (by decide)
  have notMinus : char ≠ '-' := by
    rintro rfl
    exact absurd digit (by decide)
  have notPlus : char ≠ '+' := by
    rintro rfl
    exact absurd digit (by decide)
  simp [scanInt, notSpace, notMinus, notPlus]

theorem scanInt_printInt (value : Int) (rest : List Char)
    (stops : NoDigit rest) :
    scanInt (printInt value ++ rest) = some (value, rest) := by
  cases value with
  | ofNat value =>
      have scanned := scanNat_printNat value rest stops
      cases printed : printNat value with
      | nil => exact absurd printed Nat.toDigits_ne_nil
      | cons char later =>
          have digit : char.isDigit = true :=
            isDigit_of_mem_printNat (printed ▸ List.mem_cons_self)
          rw [printed, List.cons_append] at scanned
          rw [printInt, printed, List.cons_append, scanInt_of_digit digit,
            scanned]
          rfl
  | negSucc value =>
      have scanned := scanNat_printNat (value + 1) rest stops
      have notSpace : '-'.isWhitespace = false := by decide
      simp [printInt, scanInt, notSpace, scanned, Int.negSucc_eq]

theorem length_printNat_le (value count : Nat) (positive : 0 < count)
    (bound : value < 10 ^ count) : (printNat value).length ≤ count :=
  (Nat.length_toDigits_le_iff (by decide) positive).mpr bound

end Dlm.Scan
