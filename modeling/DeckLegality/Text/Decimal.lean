/-!
# Unsigned decimal numbers

Quantities in a decklist and sizes on the command line are written alike: an optional plus sign and at least one
ASCII digit.  Leading zeros are fine; a value beyond the given limit is not.
-/

namespace DeckLegality.Text

/-- The largest copy count and copy limit that can be written: 2³² - 1. -/
def maxCount : Nat := 4294967295

/-- The largest deck size that can be written: 2⁶⁴ - 1. -/
def maxSize : Nat := 18446744073709551615

/-- Whether a character is one of the ten ASCII digits. -/
def isDigit (c : Char) : Bool :=
  '0' ≤ c && c ≤ '9'

/-- The number that a run of ASCII digits stands for, the most significant digit first. -/
def digitsValue (digits : List Char) : Nat :=
  digits.foldl (fun n d => 10 * n + (d.toNat - '0'.toNat)) 0

/-- Reads digits only; there is no number without a digit or above the limit. -/
def digits? (limit : Nat) (word : List Char) : Option Nat :=
  if word ≠ [] ∧ word.all isDigit ∧ digitsValue word ≤ limit then some (digitsValue word) else none

/-- Reads a number that may start with a plus sign. -/
def unsigned? (limit : Nat) : List Char → Option Nat
  | '+' :: word => digits? limit word
  | word => digits? limit word

theorem isDigit_iff {c : Char} : isDigit c = true ↔ 48 ≤ c.toNat ∧ c.toNat ≤ 57 := by
  rw [isDigit, Bool.and_eq_true, decide_eq_true_eq, decide_eq_true_eq]
  exact Iff.rfl

/-- Decimal digits are ASCII digits. -/
theorem isDigit_of_mem_toDigits {n : Nat} {c : Char} (h : c ∈ Nat.toDigits 10 n) : isDigit c = true :=
  Nat.isDigit_of_mem_toDigits (by decide) (by decide) h

/-- The decimal digits of a number stand for it. -/
theorem digitsValue_toDigits (n : Nat) : digitsValue (Nat.toDigits 10 n) = n :=
  Nat.ofDigitChars_eq_foldl.symm.trans Nat.ofDigitChars_ten_toDigits

theorem digits?_eq_some_iff {limit n : Nat} {word : List Char} :
    digits? limit word = some n ↔
      word ≠ [] ∧ word.all isDigit ∧ digitsValue word = n ∧ n ≤ limit := by
  unfold digits?
  split <;> grind

end DeckLegality.Text
