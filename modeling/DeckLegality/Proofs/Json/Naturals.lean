import DeckLegality.Json.Access
import DeckLegality.Proofs.Json.RoundTrip

/-!
# Natural numbers and whole texts

A natural number is written in decimal digits without leading zeros, which is how JSON wants it, so a value that holds
natural numbers is read back from its text.  Whoever reads such a text reads the value (`ofText?_render_bind`), and
finds the number again, if it is within the limit (`natUpTo?_nat`).  A natural number of 64 bits is far within the range
of double precision, so that it may also be kept before it is understood (`Numeral.isFinite_ofNat`).
-/

namespace DeckLegality

open Text (digitsValue maxSize)

/-- Only the number zero starts with the digit zero. -/
theorem Text.eq_nil_of_toDigits_eq_cons {n : ℕ} {digits : List Char} (h : Nat.toDigits 10 n = '0' :: digits) :
    digits = [] := by
  induction n using Nat.strongRecOn generalizing digits with
  | ind n ih =>
    by_cases hn : n < 10
    · rw [Nat.toDigits_of_lt_base hn] at h
      exact (List.cons.inj h).2.symm
    · -- the digits before the last one would be a zero, but the number that they make is not
      rw [Nat.toDigits_of_base_le (by decide) (Nat.le_of_not_lt hn)] at h
      obtain ⟨d, front, hfront⟩ := List.exists_cons_of_ne_nil (Nat.toDigits_ne_nil (n := n / 10) (b := 10))
      rw [hfront, List.cons_append] at h
      obtain rfl := (List.cons.inj h).1
      obtain rfl := ih (n / 10) (Nat.div_lt_self (by omega) (by decide)) hfront
      have hvalue := Text.digitsValue_toDigits (n / 10)
      rw [hfront] at hvalue
      have hzero : Text.digitsValue ['0'] = 0 := rfl
      omega

namespace Numeral

theorem isWellFormed_ofNat (n : ℕ) : (ofNat n).IsWellFormed where
  nonempty := Nat.toDigits_ne_nil
  whole _ hc := Text.isDigit_of_mem_toDigits hc
  leadingZero _ h := Text.eq_nil_of_toDigits_eq_cons h
  fraction := nofun
  exponent := nofun

theorem nat?_ofNat (n : ℕ) : (ofNat n).nat? = some n := congrArg some (Text.digitsValue_toDigits n)

/-! ## Finite numbers -/

/-- Digits only make a number larger. -/
theorem le_foldl_digits (digits : List Char) (a : ℕ) :
    a ≤ digits.foldl (fun n d => 10 * n + (d.toNat - '0'.toNat)) a := by
  induction digits generalizing a with
  | nil => exact Nat.le_refl a
  | cons d digits ih =>
    rw [List.foldl_cons]
    exact Nat.le_trans (by omega) (ih _)

/-- As long as a number fits into 64 bits, its gauge is the number itself. -/
theorem foldl_gaugeWhole (digits : List Char) (a : ℕ)
    (h : digits.foldl (fun n d => 10 * n + (d.toNat - '0'.toNat)) a ≤ maxSize) :
    digits.foldl Gauge.whole { lead := a } =
      { lead := digits.foldl (fun n d => 10 * n + (d.toNat - '0'.toNat)) a } := by
  induction digits generalizing a with
  | nil => rfl
  | cons d digits ih =>
    rw [List.foldl_cons] at h
    have hnext : digitsValue [d] + 10 * a = 10 * a + (d.toNat - '0'.toNat) := by
      show 10 * 0 + (d.toNat - '0'.toNat) + 10 * a = _
      omega
    have hstep : Gauge.whole { lead := a } d = { lead := 10 * a + (d.toNat - '0'.toNat) } := by
      simp only [Gauge.whole, hnext, Bool.not_false, Bool.true_and, decide_eq_true_eq]
      rw [if_pos (Nat.le_trans (le_foldl_digits digits _) h)]
    rw [List.foldl_cons, List.foldl_cons, hstep, ih _ h]

theorem gauge_ofNat {n : ℕ} (h : n ≤ maxSize) : (ofNat n).gauge = { lead := n } := by
  have hvalue : (Nat.toDigits 10 n).foldl (fun n d => 10 * n + (d.toNat - '0'.toNat)) 0 = n :=
    Text.digitsValue_toDigits n
  have hwhole := foldl_gaugeWhole (Nat.toDigits 10 n) 0 (by rwa [hvalue])
  rw [hvalue] at hwhole
  rw [gauge, ofNat]
  simp only [hwhole, List.foldl_nil]

/-- Rounding does not double a number. -/
theorem roundTo53_le (n : ℕ) : roundTo53 n ≤ 2 * n := by
  unfold roundTo53
  split
  · omega
  · next hn =>
    -- what is added is at most the unit of the last digit that is kept, and the number has that unit
    have hpos : n ≠ 0 := by
      rintro rfl
      exact hn (by decide)
    have hunit : 2 ^ (n.log2 - 52) ≤ n :=
      Nat.le_trans (Nat.pow_le_pow_right (by decide) (Nat.sub_le ..)) (Nat.log2_self_le hpos)
    have hquotient : n / 2 ^ (n.log2 - 52) * 2 ^ (n.log2 - 52) ≤ n := Nat.div_mul_le_self ..
    simp only [Nat.shiftLeft_eq, Nat.shiftRight_eq_div_pow]
    split
    · rw [Nat.add_mul, Nat.one_mul]
      omega
    · omega

theorem isFinite_ofNat {n : ℕ} (h : n ≤ maxSize) : (ofNat n).isFinite = true := by
  have hone : roundTo53 (Nat.pow 10 (Int.toNat 0)) = 1 := rfl
  have hlimit : 2 * maxSize < ((1 <<< 54) - 1) <<< 970 := by decide +kernel
  have hlt : roundTo53 n < ((1 <<< 54) - 1) <<< 970 :=
    Nat.lt_of_le_of_lt (Nat.le_trans (roundTo53_le n) (Nat.mul_le_mul_left 2 h)) hlimit
  rw [isFinite, gauge_ofNat h]
  simp only [hone, Nat.mul_one, hlt, decide_true, Bool.and_true, Bool.or_eq_true]
  exact Or.inr rfl

end Numeral

namespace Json

variable {α : Type}

theorem isWellFormed_nat (n : ℕ) : (nat n).IsWellFormed := .number (Numeral.isWellFormed_ofNat n)

/-- A number within the limit is read as it was. -/
theorem natUpTo?_nat {limit n : ℕ} (h : n ≤ limit) : natUpTo? limit (nat n) = some n := by
  rw [nat, natUpTo?, Numeral.nat?_ofNat, Option.filter_some, if_pos (decide_eq_true h)]

/-- To read the text of a value is to read the value. -/
theorem ofText?_render_bind {j : Json} (hj : j.IsWellFormed) (read : Json → Option α) :
    (ofText? j.render).bind read = read j := by
  rw [ofText?_render_eq hj, Option.bind_some]

end Json

end DeckLegality
