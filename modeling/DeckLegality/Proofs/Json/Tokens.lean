import DeckLegality.Json.Reader
import DeckLegality.Json.Writer
import Mathlib.Data.List.Basic

/-!
# Strings and numbers in JSON

A string or a number that has been written is taken off the front of any source that goes on after it, and read as it
was.  The end of a string shows by itself.  The end of a number does not: what follows must not look like more of it.

* `readString_append`: the characters of a string, escaped or not.
* `readString_writeString`: a string after its opening quote, also one that is no text.
* `readNumeral_writeNumeral`: a well-formed number.
-/

namespace DeckLegality

namespace Json

/-! ## Strings -/

theorem hexValue?_hexDigit {n : Nat} (hn : n < 16) : hexValue? (some (hexDigit n)) = some n :=
  (by decide : ∀ n < 16, hexValue? (some (hexDigit n)) = some n) n hn

/-- The code of a control in hexadecimal digits. -/
theorem unit?_hexDigits {c : Char} (hc : c.toNat < 0x20) :
    unit? (some '0') (some '0') (some (hexDigit (c.toNat / 16))) (some (hexDigit (c.toNat % 16))) = some c.toNat := by
  have hzero : hexValue? (some '0') = some 0 := by decide
  have hhigh : hexValue? (some (hexDigit (c.toNat / 16))) = some (c.toNat / 16) := hexValue?_hexDigit (by omega)
  have hlow : hexValue? (some (hexDigit (c.toNat % 16))) = some (c.toNat % 16) := hexValue?_hexDigit (by omega)
  simp only [unit?, hzero, hhigh, hlow, Option.bind_eq_bind, Option.bind_some, Option.some.injEq]
  omega

/-- A character is escaped by a letter, or by its code, or stands as it is. -/
theorem writeChar_cases (c : Char) :
    (∃ e, writeChar c = ['\\', e] ∧ e ≠ 'u' ∧ escape? e = some c) ∨
      (writeChar c = ['\\', 'u', '0', '0', hexDigit (c.toNat / 16), hexDigit (c.toNat % 16)] ∧ c.toNat < 0x20) ∨
        (writeChar c = [c] ∧ c ≠ '"' ∧ c ≠ '\\' ∧ ¬c.toNat < 0x20) := by
  unfold writeChar
  split
  · exact Or.inl ⟨'"', rfl, by decide, rfl⟩
  · exact Or.inl ⟨'\\', rfl, by decide, rfl⟩
  · exact Or.inl ⟨'b', rfl, by decide, rfl⟩
  · exact Or.inl ⟨'f', rfl, by decide, rfl⟩
  · exact Or.inl ⟨'n', rfl, by decide, rfl⟩
  · exact Or.inl ⟨'r', rfl, by decide, rfl⟩
  · exact Or.inl ⟨'t', rfl, by decide, rfl⟩
  · rename_i hquote hbackslash _ _ _ _ _
    by_cases hc : c.toNat < 0x20
    · exact Or.inr (Or.inl ⟨if_pos hc, hc⟩)
    · exact Or.inr (Or.inr ⟨if_neg hc, hquote, hbackslash, hc⟩)

/-- A letter that stands for a character after a backslash. -/
theorem readString_escape (t : Content) {e c : Char} (he : e ≠ 'u') (hescape : escape? e = some c) (r : Source) :
    readString t (some '\\' :: some e :: r) = readString (t.push c) r := by
  rw [readString, hescape]
  exact fun _ _ _ _ _ _ hu => he hu

/-- A control as its code. -/
theorem readString_code (before : List Char) {c : Char} (hc : c.toNat < 0x20) (r : Source) :
    readString ⟨some before, none⟩ (some '\\' :: some 'u' :: some '0' :: some '0' ::
      some (hexDigit (c.toNat / 16)) :: some (hexDigit (c.toNat % 16)) :: r) =
        readString ⟨some (c :: before), none⟩ r := by
  have hhigh : (0xD800 ≤ c.toNat && c.toNat < 0xDC00) = false := by
    rw [Bool.and_eq_false_iff, decide_eq_false_iff_not]
    omega
  have hlow : (0xDC00 ≤ c.toNat && c.toNat < 0xE000) = false := by
    rw [Bool.and_eq_false_iff, decide_eq_false_iff_not]
    omega
  have hunit : Content.pushUnit ⟨some before, none⟩ c.toNat = ⟨some (c :: before), none⟩ := by
    simp only [Content.pushUnit, hhigh, hlow, Bool.false_eq_true, if_false, Char.ofNat_toNat]
    rfl
  rw [readString, unit?_hexDigits hc]
  exact congrArg (readString · r) hunit

/-- A character that stands as it is. -/
theorem readString_plain (t : Content) {c : Char} (hquote : c ≠ '"') (hbackslash : c ≠ '\\') (hc : ¬c.toNat < 0x20)
    (r : Source) : readString t (some c :: r) = readString (t.push c) r := by
  rw [readString, if_neg hc]
  · exact hquote
  · exact fun _ _ _ _ _ _ h => hbackslash h
  · exact fun _ _ _ h => hbackslash h
  · exact hbackslash

/-- One character of a string, escaped or not. -/
theorem readString_writeChar (before : List Char) (c : Char) (r : Source) :
    readString ⟨some before, none⟩ ((writeChar c).map some ++ r) = readString ⟨some (c :: before), none⟩ r := by
  rcases writeChar_cases c with ⟨e, hwrite, he, hescape⟩ | ⟨hwrite, hc⟩ | ⟨hwrite, hquote, hbackslash, hc⟩
  · rw [hwrite]
    exact readString_escape _ he hescape r
  · rw [hwrite]
    exact readString_code before hc r
  · rw [hwrite]
    exact readString_plain _ hquote hbackslash hc r

/-- The characters of a string, one after the other. -/
theorem readString_append (before cs : List Char) (r : Source) :
    readString ⟨some before, none⟩ ((cs.flatMap writeChar).map some ++ r) =
      readString ⟨some (cs.reverse ++ before), none⟩ r := by
  induction cs generalizing before with
  | nil => rfl
  | cons c cs ih =>
    rw [List.flatMap_cons, List.map_append, List.append_assoc, readString_writeChar, ih, List.reverse_cons,
      List.append_assoc, List.singleton_append]

/-- A string, also one that is no text, after its opening quote. -/
theorem readString_writeString (s : Option String) (r : Source) :
    ∃ body, (writeString s).map some ++ r = some '"' :: body ∧ readString {} body = some (s, r) := by
  cases s with
  | none => exact ⟨_, rfl, rfl⟩
  | some s =>
    refine ⟨(s.toList.flatMap writeChar).map some ++ some '"' :: r, ?_, ?_⟩
    · simp only [writeString, List.map_cons, List.map_append, List.map_nil, List.cons_append, List.append_assoc,
        List.nil_append]
    · rw [readString_append [] s.toList, readString]
      simp only [Content.finish, List.append_nil, List.reverse_reverse, Option.isSome_none, Bool.false_eq_true,
        if_false, Option.map_some, String.ofList_toList]

end Json

/-! ## Numbers -/

/-- The digits of the numeral make a number: there are digits before the point, only zero itself starts with a zero,
and an exponent has digits. -/
structure Numeral.IsWellFormed (n : Numeral) : Prop where
  nonempty : n.whole ≠ []
  whole : ∀ c ∈ n.whole, Text.isDigit c = true
  leadingZero : ∀ digits, n.whole = '0' :: digits → digits = []
  fraction : ∀ c ∈ n.fraction, Text.isDigit c = true
  exponent : ∀ e, n.exponent = some e → e.2 ≠ [] ∧ ∀ c ∈ e.2, Text.isDigit c = true

namespace Json

/-- The mark of a negative number. -/
def signMark (negative : Bool) : List Char := if negative then ['-'] else []

/-- The point and the digits after it. -/
def fractionMark (digits : List Char) : List Char := if digits.isEmpty then [] else '.' :: digits

/-- The exponent with its mark. -/
def exponentMark : Option (Bool × List Char) → List Char
  | none => []
  | some (negative, digits) => 'e' :: signMark negative ++ digits

theorem writeNumeral_eq (n : Numeral) :
    writeNumeral n = signMark n.negative ++ (n.whole ++ (fractionMark n.fraction ++ exponentMark n.exponent)) := by
  obtain ⟨negative, whole, fraction, _ | ⟨below, digits⟩⟩ := n <;>
    simp only [writeNumeral, signMark, fractionMark, exponentMark, List.append_assoc]

/-- No digit comes next. -/
def NoDigitNext (r : Source) : Prop := ∀ c, r.head? = some (some c) → Text.isDigit c = false

/-- What comes next is not more of a number. -/
structure EndsNumber (r : Source) : Prop where
  digit : NoDigitNext r
  point : r.head? ≠ some (some '.')
  small : r.head? ≠ some (some 'e')
  capital : r.head? ≠ some (some 'E')

theorem endsNumber_nil : EndsNumber [] := ⟨nofun, nofun, nofun, nofun⟩

theorem noDigitNext_cons {c : Char} (hc : Text.isDigit c = false) (r : Source) : NoDigitNext (some c :: r) := by
  intro d hd
  rw [List.head?_cons, Option.some.injEq, Option.some.injEq] at hd
  exact hd ▸ hc

/-- Neither the marks of the grammar nor blanks look like more of a number. -/
theorem endsNumber_cons {c : Char} (hdigit : Text.isDigit c = false) (hpoint : c ≠ '.') (hsmall : c ≠ 'e')
    (hcapital : c ≠ 'E') (r : Source) : EndsNumber (some c :: r) where
  digit := noDigitNext_cons hdigit r
  point h := hpoint (Option.some.inj (Option.some.inj h))
  small h := hsmall (Option.some.inj (Option.some.inj h))
  capital h := hcapital (Option.some.inj (Option.some.inj h))

theorem readDigits_of_noDigitNext {r : Source} (hr : NoDigitNext r) : readDigits r = ([], r) := by
  match r, hr with
  | [], _ => rfl
  | none :: r, _ => rfl
  | some c :: r, hr => rw [readDigits, if_neg (Bool.eq_false_iff.mp (hr c rfl))]

/-- A run of digits, as far as it goes. -/
theorem readDigits_append {digits : List Char} (hdigits : ∀ c ∈ digits, Text.isDigit c = true) {r : Source}
    (hr : NoDigitNext r) : readDigits (digits.map some ++ r) = (digits, r) := by
  induction digits with
  | nil => exact readDigits_of_noDigitNext hr
  | cons c digits ih =>
    obtain ⟨hc, htail⟩ := List.forall_mem_cons.mp hdigits
    rw [List.map_cons, List.cons_append, readDigits, if_pos hc, ih htail]

theorem readWhole_append {digits : List Char} (hnonempty : digits ≠ [])
    (hdigits : ∀ c ∈ digits, Text.isDigit c = true) (hzero : ∀ tail, digits = '0' :: tail → tail = []) {r : Source}
    (hr : NoDigitNext r) : readWhole (digits.map some ++ r) = some (digits, r) := by
  rw [readWhole, readDigits_append hdigits hr]
  split
  · rename_i h
    exact absurd (congrArg Prod.fst h) hnonempty
  · rename_i h
    exact absurd (hzero _ (congrArg Prod.fst h)) (List.cons_ne_nil _ _)
  · rename_i h
    rw [h]

theorem readFraction_append {digits : List Char} (hdigits : ∀ c ∈ digits, Text.isDigit c = true) {r : Source}
    (hr : NoDigitNext r) (hpoint : r.head? ≠ some (some '.')) :
    readFraction ((fractionMark digits).map some ++ r) = some (digits, r) := by
  cases digits with
  | nil =>
    show readFraction r = some ([], r)
    unfold readFraction
    split
    · exact absurd rfl hpoint
    · rfl
  | cons d digits =>
    show readFraction (some '.' :: ((d :: digits).map some ++ r)) = _
    rw [readFraction, readDigits_append hdigits hr]

theorem readSign_append (negative : Bool) {digits : List Char} (hnonempty : digits ≠ [])
    (hdigits : ∀ c ∈ digits, Text.isDigit c = true) (r : Source) :
    readSign ((signMark negative).map some ++ (digits.map some ++ r)) = (negative, digits.map some ++ r) := by
  cases negative with
  | true => rfl
  | false =>
    obtain ⟨d, tail, rfl⟩ := List.exists_cons_of_ne_nil hnonempty
    have hd : Text.isDigit d = true := hdigits d List.mem_cons_self
    show readSign (some d :: (tail.map some ++ r)) = _
    unfold readSign
    split
    · rename_i h
      obtain rfl : d = '-' := Option.some.inj (List.cons.inj h).1
      exact absurd hd (by decide)
    · rename_i h
      obtain rfl : d = '+' := Option.some.inj (List.cons.inj h).1
      exact absurd hd (by decide)
    · rfl

theorem readExponent_append {exponent : Option (Bool × List Char)}
    (hexponent : ∀ e, exponent = some e → e.2 ≠ [] ∧ ∀ c ∈ e.2, Text.isDigit c = true) {r : Source}
    (hr : EndsNumber r) : readExponent ((exponentMark exponent).map some ++ r) = some (exponent, r) := by
  rcases exponent with - | ⟨negative, digits⟩
  · show readExponent r = some (none, r)
    match r, hr with
    | [], _ => rfl
    | none :: r, _ => rfl
    | some c :: r, hr =>
      refine if_neg ?_
      rintro (rfl | rfl)
      · exact hr.small rfl
      · exact hr.capital rfl
  · obtain ⟨hnonempty, hdigits⟩ := hexponent _ rfl
    have hsign := readSign_append negative hnonempty hdigits r
    have hwritten : (exponentMark (some (negative, digits))).map some ++ r =
        some 'e' :: ((signMark negative).map some ++ (digits.map some ++ r)) := by
      simp only [exponentMark, List.cons_append, List.map_cons, List.map_append, List.append_assoc]
    rw [hwritten, readExponent, if_pos (Or.inl rfl), hsign, readDigits_append hdigits hr.digit]
    obtain ⟨d, tail, rfl⟩ := List.exists_cons_of_ne_nil hnonempty
    rfl

/-- The digits before the exponent end where it starts. -/
theorem noDigitNext_exponent (exponent : Option (Bool × List Char)) {r : Source} (hr : EndsNumber r) :
    NoDigitNext ((exponentMark exponent).map some ++ r) := by
  rcases exponent with - | ⟨negative, digits⟩
  · exact hr.digit
  · exact noDigitNext_cons (by decide) _

/-- The digits before the point end where it stands, or where the exponent starts. -/
theorem noDigitNext_fraction (fraction : List Char) (exponent : Option (Bool × List Char)) {r : Source}
    (hr : EndsNumber r) :
    NoDigitNext ((fractionMark fraction).map some ++ ((exponentMark exponent).map some ++ r)) := by
  rcases fraction with - | ⟨d, fraction⟩
  · exact noDigitNext_exponent exponent hr
  · exact noDigitNext_cons (by decide) _

theorem head?_exponent_ne_point (exponent : Option (Bool × List Char)) {r : Source} (hr : EndsNumber r) :
    ((exponentMark exponent).map some ++ r).head? ≠ some (some '.') := by
  rcases exponent with - | ⟨negative, digits⟩
  · exact hr.point
  · exact fun h => absurd (Option.some.inj (Option.some.inj h)) (by decide)

theorem readUnsigned_append {n : Numeral} (hn : n.IsWellFormed) {r : Source} (hr : EndsNumber r) :
    readUnsigned n.negative ((n.whole ++ (fractionMark n.fraction ++ exponentMark n.exponent)).map some ++ r) =
      some (n, r) := by
  rw [List.map_append, List.map_append, List.append_assoc, List.append_assoc, readUnsigned,
    readWhole_append hn.nonempty hn.whole hn.leadingZero (noDigitNext_fraction n.fraction n.exponent hr)]
  simp only [Option.bind_eq_bind, Option.bind_some,
    readFraction_append hn.fraction (noDigitNext_exponent n.exponent hr) (head?_exponent_ne_point n.exponent hr),
    readExponent_append hn.exponent hr]

/-- A number that is written starts with a minus sign or a digit. -/
theorem exists_writeNumeral_eq_cons {n : Numeral} (hn : n.IsWellFormed) :
    ∃ c tail, writeNumeral n = c :: tail ∧ (c = '-' ∨ Text.isDigit c = true) := by
  rw [writeNumeral_eq]
  obtain ⟨d, whole, hwhole⟩ := List.exists_cons_of_ne_nil hn.nonempty
  rw [hwhole]
  cases n.negative with
  | true => exact ⟨_, _, rfl, Or.inl rfl⟩
  | false => exact ⟨_, _, rfl, Or.inr (hn.whole d (hwhole ▸ List.mem_cons_self))⟩

/-- A number that is written is read as it was, if what follows does not look like more of it. -/
theorem readNumeral_writeNumeral {n : Numeral} (hn : n.IsWellFormed) {r : Source} (hr : EndsNumber r) :
    readNumeral ((writeNumeral n).map some ++ r) = some (n, r) := by
  have hunsigned := readUnsigned_append hn hr
  rw [writeNumeral_eq]
  obtain ⟨d, whole, hwhole⟩ := List.exists_cons_of_ne_nil hn.nonempty
  have hd : Text.isDigit d = true := hn.whole d (hwhole ▸ List.mem_cons_self)
  cases hnegative : n.negative with
  | true =>
    rw [hnegative] at hunsigned
    exact hunsigned
  | false =>
    rw [hnegative, hwhole] at hunsigned
    rw [hwhole]
    refine Eq.trans ?_ hunsigned
    show readNumeral (some d :: _) = _
    unfold readNumeral
    split
    · rename_i h
      obtain rfl : d = '-' := Option.some.inj (List.cons.inj h).1
      exact absurd hd (by decide)
    · rfl

end Json

end DeckLegality
