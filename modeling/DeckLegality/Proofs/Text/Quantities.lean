import DeckLegality.Proofs.Text.FirstWord
import Mathlib.Data.List.Induction
import Mathlib.Data.Nat.Digits.Defs

/-!
# How quantities are written

A quantity is written with digits, which a plus sign may precede and an x may follow.  `WrittenQuantity` is such a way of
writing, apart from any text: `WrittenQuantity.word` writes it down, and `WrittenQuantity.value` is what its digits stand
for by their places.

* `WrittenQuantity.quantity?_word`: what is written down is read as its value, unless that is above the largest count.
* `exists_word_eq_of_quantity?`: nothing else is read as a quantity.

So a word that has a character which no quantity has, or no digit, or an x too many is not read as one.
-/

namespace DeckLegality

namespace DeckLine

open Text

/-- A way of writing a quantity: with a plus sign or without, the digits, and what follows them. -/
structure WrittenQuantity where
  plus : Bool
  digits : List (Fin 10)
  times : List Char
  digits_ne_nil : digits ≠ [] := by decide
  times_mem : times ∈ [[], ['x'], ['X']] := by decide

/-- A digit written down. -/
def digitChar (d : Fin 10) : Char := Nat.digitChar d.val

namespace WrittenQuantity

/-- The plus sign, if there is one. -/
def sign (q : WrittenQuantity) : List Char := if q.plus then ['+'] else []

/-- The quantity written down. -/
def word (q : WrittenQuantity) : List Char := q.sign ++ q.digits.map digitChar ++ q.times

/-- The number that the digits stand for, the most significant one first. -/
def value (q : WrittenQuantity) : ℕ := Nat.ofDigits 10 (q.digits.map Fin.val).reverse

end WrittenQuantity

/-! ## Digits -/

theorem toNat_digitChar (d : Fin 10) : (digitChar d).toNat = 48 + d := Nat.toNat_digitChar_of_lt_ten d.isLt

theorem isDigit_digitChar (d : Fin 10) : isDigit (digitChar d) = true := by
  rw [isDigit_iff, toNat_digitChar]
  omega

theorem digitChar_mem (d : Fin 10) : digitChar d ∈ "0123456789".toList := by
  revert d
  decide

/-- An ASCII digit is a digit written down. -/
theorem exists_digitChar_eq {c : Char} (hc : isDigit c = true) : ∃ d, digitChar d = c := by
  obtain ⟨hlow, hhigh⟩ := isDigit_iff.mp hc
  refine ⟨⟨c.toNat - 48, by omega⟩, Char.toNat_inj.mp ?_⟩
  rw [toNat_digitChar, Nat.add_sub_cancel' hlow]

/-- A run of ASCII digits is a list of digits written down. -/
theorem exists_map_digitChar_eq {word : List Char} (h : ∀ c ∈ word, isDigit c = true) :
    ∃ digits : List (Fin 10), digits.map digitChar = word := by
  induction word with
  | nil => exact ⟨[], rfl⟩
  | cons c word ih =>
    obtain ⟨hc, hword⟩ := List.forall_mem_cons.mp h
    obtain ⟨d, rfl⟩ := exists_digitChar_eq hc
    obtain ⟨digits, rfl⟩ := ih hword
    exact ⟨d :: digits, rfl⟩

/-- Digits that are read one after the other stand for what they do by their places. -/
theorem digitsValue_map_digitChar (digits : List (Fin 10)) :
    digitsValue (digits.map digitChar) = Nat.ofDigits 10 (digits.map Fin.val).reverse := by
  -- the digit that is read last has the lowest place
  induction digits using List.reverseRecOn with
  | nil => rfl
  | append_singleton digits d ih =>
    have hdigit : (digitChar d).toNat - '0'.toNat = d := by
      rw [toNat_digitChar]
      exact Nat.add_sub_cancel_left ..
    rw [List.map_append, List.map_append, List.reverse_append, digitsValue, List.foldl_append, ← digitsValue, ih,
      List.map_singleton, List.map_singleton, List.reverse_singleton, List.singleton_append, Nat.ofDigits_cons,
      List.foldl_cons, List.foldl_nil, hdigit, Nat.add_comm]

/-! ## What is read -/

/-- A plus sign before the digits does not matter. -/
theorem unsigned?_append {limit : ℕ} {sign digits : List Char} (hsign : sign ∈ [[], ['+']]) (hne : digits ≠ [])
    (hdigits : ∀ d ∈ digits, isDigit d = true) : unsigned? limit (sign ++ digits) = digits? limit digits := by
  rcases List.mem_pair.mp hsign with rfl | rfl
  · obtain ⟨d, digits, rfl⟩ := List.exists_cons_of_ne_nil hne
    rw [List.nil_append, unsigned?]
    intro digits' heq
    obtain ⟨rfl, -⟩ := List.cons.inj heq
    exact absurd (hdigits '+' List.mem_cons_self) (by decide)
  · rfl

namespace WrittenQuantity

theorem sign_mem (q : WrittenQuantity) : q.sign ∈ [[], ['+']] := by
  rw [sign]
  cases q.plus <;> decide

theorem map_digits_ne_nil (q : WrittenQuantity) : q.digits.map digitChar ≠ [] :=
  mt List.map_eq_nil_iff.mp q.digits_ne_nil

theorem isDigit_of_mem (q : WrittenQuantity) : ∀ c ∈ q.digits.map digitChar, isDigit c = true := by
  intro c hc
  obtain ⟨d, -, rfl⟩ := List.mem_map.mp hc
  exact isDigit_digitChar d

/-- What is written down is read as its value, unless that is above the largest count. -/
theorem quantity?_word (q : WrittenQuantity) :
    quantity? q.word = if q.value ≤ maxCount then some q.value else none := by
  rw [quantity?, word, dropTimes_append q.map_digits_ne_nil q.isDigit_of_mem q.times_mem,
    unsigned?_append q.sign_mem q.map_digits_ne_nil q.isDigit_of_mem, digits?, digitsValue_map_digitChar, ← value]
  refine if_congr ?_ rfl rfl
  rw [and_iff_right q.map_digits_ne_nil, and_iff_right (List.all_eq_true.mpr q.isDigit_of_mem)]

end WrittenQuantity

/-- A word that is read as a quantity is one written down. -/
theorem exists_word_eq_of_quantity? {word : List Char} {k : ℕ} (h : quantity? word = some k) :
    ∃ q : WrittenQuantity, q.word = word := by
  obtain ⟨sign, digits, times, rfl, hsign, htimes, hne, hdigits, -, -⟩ := quantity?_eq_some_iff.mp h
  obtain ⟨digits, rfl⟩ := exists_map_digitChar_eq hdigits
  have hne : digits ≠ [] := mt List.map_eq_nil_iff.mpr hne
  rcases List.mem_pair.mp hsign with rfl | rfl
  · exact ⟨⟨false, digits, times, hne, htimes⟩, rfl⟩
  · exact ⟨⟨true, digits, times, hne, htimes⟩, rfl⟩

/-! ## What is not read -/

variable {word : List Char}

/-- Every character of a quantity is a plus sign, a digit or an x. -/
theorem quantity?_eq_none_of_mem {c : Char} (hc : c ∈ word) (hnot : c ∉ "+0123456789xX".toList) :
    quantity? word = none := by
  refine Option.eq_none_iff_forall_ne_some.mpr fun k h => hnot ?_
  have hall := (quantity?_eq_some_iff.mp h).forall_mem (P := (· ∈ "+0123456789xX".toList)) (by decide) (by decide)
    (by decide) fun c hc => ?_
  · exact hall c hc
  · obtain ⟨d, rfl⟩ := exists_digitChar_eq hc
    revert d
    decide

/-- Some character of a quantity is a digit. -/
theorem quantity?_eq_none_of_forall (h : ∀ c ∈ word, c ∉ "0123456789".toList) : quantity? word = none := by
  refine Option.eq_none_iff_forall_ne_some.mpr fun k hk => ?_
  obtain ⟨q, rfl⟩ := exists_word_eq_of_quantity? hk
  obtain ⟨d, digits, hdigits⟩ := List.exists_cons_of_ne_nil q.digits_ne_nil
  refine h (digitChar d) ?_ (digitChar_mem d)
  rw [WrittenQuantity.word, hdigits]
  simp

theorem dropTimes_concat {t : Char} (ht : t ∈ ['x', 'X']) (word : List Char) : dropTimes (word ++ [t]) = word := by
  rw [dropTimes, List.getLast?_concat, if_pos, List.dropLast_concat]
  exact (List.mem_pair.mp ht).imp (congrArg some) (congrArg some)

/-- Only one x follows the digits. -/
theorem quantity?_eq_none_of_twice {s t : Char} (hs : s ∈ ['x', 'X']) (ht : t ∈ ['x', 'X']) (word : List Char) :
    quantity? (word ++ [s, t]) = none := by
  have hdrop : dropTimes (word ++ [s, t]) = word ++ [s] := by
    rw [List.append_cons, dropTimes_concat ht]
  refine Option.eq_none_iff_forall_ne_some.mpr fun k h => ?_
  rw [quantity?, hdrop, unsigned?_eq_some_iff] at h
  obtain ⟨sign, digits, heq, -, hdigits⟩ := h
  obtain ⟨hne, hall, -⟩ := digits?_eq_some_iff.mp hdigits
  -- the x that is left would be the last digit
  have hlast : digits.getLast? = some s := by
    rw [← List.getLast?_append_of_ne_nil sign hne, ← heq, List.getLast?_concat]
  have hdigit := List.all_eq_true.mp hall s (List.mem_of_getLast? hlast)
  rcases List.mem_pair.mp hs with rfl | rfl
  · exact absurd hdigit (by decide)
  · exact absurd hdigit (by decide)

/-! ## The words that are quantities -/

theorem quantity?_eq_some_iff_exists {k : ℕ} :
    quantity? word = some k ↔ ∃ q : WrittenQuantity, q.word = word ∧ q.value = k ∧ k ≤ maxCount := by
  constructor
  · intro h
    obtain ⟨q, rfl⟩ := exists_word_eq_of_quantity? h
    rw [q.quantity?_word, Option.ite_none_right_eq_some] at h
    obtain ⟨hle, hvalue⟩ := h
    obtain rfl := Option.some.inj hvalue
    exact ⟨q, rfl, rfl, hle⟩
  · rintro ⟨q, rfl, rfl, hle⟩
    rw [q.quantity?_word, if_pos hle]

/-- **The words that are quantities.**  A word is read as the quantity `k` exactly if it is a plus sign or none, at least
one digit, and one x or none, written down one after the other, with digits that stand for `k` and do not stand for more
than the largest count.  So there is no quantity in a word with another character in it or without a digit, with two x at
its end or with too large a value.  And a quantity is no heading, in whatever way it is written in lower case. -/
theorem quantity?_eq_some_iff_written :
    (∀ word k, quantity? word = some k ↔ ∃ q : WrittenQuantity, q.word = word ∧ q.value = k ∧ k ≤ 4294967295) ∧
    (∀ word, ∀ c ∈ word, c ∉ "+0123456789xX".toList → quantity? word = none) ∧
    (∀ word, (∀ c ∈ word, c ∉ "0123456789".toList) → quantity? word = none) ∧
    (∀ word, ∀ s ∈ ['x', 'X'], ∀ t ∈ ['x', 'X'], quantity? (word ++ [s, t]) = none) ∧
    (∀ q : WrittenQuantity, 4294967295 < q.value → quantity? q.word = none) ∧
    ∀ word k, quantity? word = some k → isDeckWord word = false ∧ isSideWord word = false ∧
      ∀ lower : LowerCasing, ¬ "deck".toList <:+: lower word ∧ ¬ "side".toList <:+: lower word := by
  refine ⟨fun word k => quantity?_eq_some_iff_exists, fun word c => quantity?_eq_none_of_mem,
    fun word => quantity?_eq_none_of_forall, fun word s hs t ht => quantity?_eq_none_of_twice hs ht word,
    fun q hlt => ?_, fun word k h => ?_⟩
  · rw [q.quantity?_word]
    exact if_neg (Nat.not_le.mpr hlt)
  · obtain ⟨hdeck, hside⟩ := (quantity?_eq_some_iff.mp h).not_heading
    refine ⟨hdeck, hside, fun lower => ?_⟩
    rw [← isDeckWord_iff lower, ← isSideWord_iff lower, hdeck, hside]
    exact ⟨Bool.false_ne_true, Bool.false_ne_true⟩

/-- The largest count, with zeros before it. -/
def utmost : WrittenQuantity := { plus := true, digits := [0, 0, 4, 2, 9, 4, 9, 6, 7, 2, 9, 5], times := ['X'] }

/-- One more than the largest count. -/
def excessive : WrittenQuantity := { plus := false, digits := [4, 2, 9, 4, 9, 6, 7, 2, 9, 6], times := [] }

theorem quantity?_eq_some_iff_written_utmost :
    (quantity? "+004294967295X".toList = some 4294967295 ∧ isSideWord "+004294967295X".toList = false) ∧
    quantity? "4294967296".toList = none ∧ quantity? "-1".toList = none ∧ quantity? "+x".toList = none ∧
    quantity? "4xX".toList = none := by
  obtain ⟨hiff, hother, hdigit, htwice, hlarge, hheading⟩ := quantity?_eq_some_iff_written
  have hutmost : quantity? "+004294967295X".toList = some 4294967295 :=
    (hiff _ _).mpr ⟨utmost, by decide, by decide +kernel, le_rfl⟩
  refine ⟨⟨hutmost, (hheading _ _ hutmost).2.1⟩, ?_, hother _ '-' (by decide) (by decide), ?_, ?_⟩
  · exact hlarge excessive (by decide +kernel)
  · exact hdigit _ (by simp)
  · exact htwice ['4'] 'x' (by decide) 'X' (by decide)

end DeckLine

end DeckLegality
