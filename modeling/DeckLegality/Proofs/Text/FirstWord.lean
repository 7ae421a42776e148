import DeckLegality.DecklistText
import Mathlib.Data.List.Forall2

/-!
# The first word of a line

The first word tells what a line of a decklist says: it is a quantity, or it has the name of a heading in it, in
whatever case.

A heading is looked for in the lower-case form of the word, of which `Text.lowerWord` knows only what is ASCII.  By
`LowerCasing.infix_apply_iff` that is enough: every way of writing words in lower case that treats the ASCII
characters, the Kelvin sign and the dotted capital I as Unicode does finds the same ASCII words.  Unicode's own way
is one of these, and the form of a capital sigma, which depends on where it stands, is not ASCII in either case.

* `LowerCasing.infix_apply_iff`: an ASCII word is found in the lower-case form of a word or not, whatever becomes of
  the other characters.
* `DeckLine.isDeckWord_iff`, `DeckLine.isSideWord_iff`: the words that are headings.
* `DeckLine.quantity?_eq_some_iff`: the words that are quantities.
-/

namespace DeckLegality

namespace Text

/-! ## Lower-case forms -/

/-- `form` may be the lower-case form of a character.  Besides the ASCII characters only two have a form in which an
ASCII character occurs. -/
inductive IsLowerForm : Char → List Char → Prop
  | ascii {c : Char} (hc : c.toNat < 128) : IsLowerForm c [c.toLower]
  | kelvinSign : IsLowerForm '\u212a' ['k']
  | dottedCapitalI : IsLowerForm '\u0130' ['i', '\u0307']
  | other {c : Char} {form : List Char} (hc : 128 ≤ c.toNat) (hkelvin : c ≠ '\u212a') (hdotted : c ≠ '\u0130')
      (hne : form ≠ []) (hform : ∀ d ∈ form, 128 ≤ d.toNat) : IsLowerForm c form

/-- A way of writing words in lower case: every character is replaced by a lower-case form of it, which may depend on
the word in which it stands. -/
structure LowerCasing where
  apply : List Char → List Char
  exists_forms : ∀ word, ∃ forms, List.Forall₂ IsLowerForm word forms ∧ forms.flatten = apply word

namespace LowerCasing

instance : CoeFun LowerCasing fun _ => List Char → List Char := ⟨apply⟩

end LowerCasing

theorem lowerCase_of_ascii {c : Char} (hc : c.toNat < 128) : lowerCase c = [c.toLower] := by
  have hall : ∀ n < 128, lowerCase (Char.ofNat n) = [(Char.ofNat n).toLower] := by decide
  have h := hall c.toNat hc
  rwa [Char.ofNat_toNat] at h

theorem lowerCase_of_other {c : Char} (hc : 128 ≤ c.toNat) (hkelvin : c ≠ '\u212a') (hdotted : c ≠ '\u0130') :
    lowerCase c = [c] := by
  have hcapital : ¬ ('A' ≤ c ∧ c ≤ 'Z') := by
    rintro ⟨-, hle⟩
    have hle' : c.toNat ≤ 90 := hle
    omega
  rw [lowerCase, if_neg hcapital, if_neg hdotted, if_neg hkelvin]

/-- The lower-case form that is known of a character is one. -/
theorem isLowerForm_lowerCase (c : Char) : IsLowerForm c (lowerCase c) := by
  rcases Nat.lt_or_ge c.toNat 128 with hc | hc
  · rw [lowerCase_of_ascii hc]
    exact .ascii hc
  · by_cases hkelvin : c = '\u212a'
    · subst hkelvin
      exact .kelvinSign
    · by_cases hdotted : c = '\u0130'
      · subst hdotted
        exact .dottedCapitalI
      · rw [lowerCase_of_other hc hkelvin hdotted]
        exact .other hc hkelvin hdotted (List.cons_ne_nil _ _) fun d hd => by rwa [List.mem_singleton.mp hd]

instance : Inhabited LowerCasing where
  default := {
    apply := lowerWord
    exists_forms := fun word => by
      refine ⟨word.map lowerCase, ?_, List.flatMap_def.symm⟩
      rw [List.forall₂_map_right_iff, List.forall₂_same]
      exact fun c _ => isLowerForm_lowerCase c }

/-! ## ASCII words in lower-case forms -/

/-- The same ASCII words are found in both texts, at the start and anywhere. -/
def AsciiAlike (s t : List Char) : Prop :=
  ∀ word : List Char, (∀ c ∈ word, c.toNat < 128) → (word <+: s ↔ word <+: t) ∧ (word <:+: s ↔ word <:+: t)

variable {s t f g : List Char}

theorem AsciiAlike.cons (h : AsciiAlike s t) (c : Char) : AsciiAlike (c :: s) (c :: t) := by
  intro word hword
  have hstart : word <+: c :: s ↔ word <+: c :: t := by
    cases word with
    | nil => exact iff_of_true (List.nil_prefix) (List.nil_prefix)
    | cons d word =>
      rw [List.cons_prefix_cons, List.cons_prefix_cons, (h word (List.forall_mem_of_forall_mem_cons hword)).1]
  exact ⟨hstart, by rw [List.infix_cons_iff, List.infix_cons_iff, hstart, (h word hword).2]⟩

theorem AsciiAlike.append_left (h : AsciiAlike s t) (f : List Char) : AsciiAlike (f ++ s) (f ++ t) := by
  induction f with
  | nil => exact h
  | cons c f ih => exact ih.cons c

/-- No ASCII word but the empty one is found at the start of a text that starts with another character. -/
theorem prefix_cons_iff_eq_nil {c : Char} (hc : 128 ≤ c.toNat) {word : List Char}
    (hword : ∀ d ∈ word, d.toNat < 128) : word <+: c :: s ↔ word = [] := by
  cases word with
  | nil => exact iff_of_true List.nil_prefix rfl
  | cons d word =>
    have hne : d ≠ c := by
      rintro rfl
      exact absurd (hword d List.mem_cons_self) (Nat.not_lt.mpr hc)
    rw [List.cons_prefix_cons]
    exact iff_of_false (fun h => hne h.1) (List.cons_ne_nil _ _)

/-- Characters that are not ASCII do not matter where ASCII words are found. -/
theorem infix_append_iff (hf : ∀ c ∈ f, 128 ≤ c.toNat) {word : List Char} (hword : ∀ d ∈ word, d.toNat < 128) :
    word <:+: f ++ s ↔ word <:+: s := by
  induction f with
  | nil => exact Iff.rfl
  | cons c f ih =>
    obtain ⟨hc, hf⟩ := List.forall_mem_cons.mp hf
    rw [List.cons_append, List.infix_cons_iff, prefix_cons_iff_eq_nil hc hword, ih hf, or_iff_right_iff_imp]
    rintro rfl
    exact List.nil_infix

theorem AsciiAlike.append_other (h : AsciiAlike s t) (hf : f ≠ []) (hg : g ≠ []) (hf' : ∀ c ∈ f, 128 ≤ c.toNat)
    (hg' : ∀ c ∈ g, 128 ≤ c.toNat) : AsciiAlike (f ++ s) (g ++ t) := by
  intro word hword
  refine ⟨?_, by rw [infix_append_iff hf' hword, infix_append_iff hg' hword, (h word hword).2]⟩
  obtain ⟨c, f, rfl⟩ := List.exists_cons_of_ne_nil hf
  obtain ⟨d, g, rfl⟩ := List.exists_cons_of_ne_nil hg
  rw [List.cons_append, List.cons_append, prefix_cons_iff_eq_nil (hf' c List.mem_cons_self) hword,
    prefix_cons_iff_eq_nil (hg' d List.mem_cons_self) hword]

/-- Whatever forms the characters of a word have, the same ASCII words are found in them. -/
theorem asciiAlike_of_forms {word : List Char} {forms : List (List Char)}
    (h : List.Forall₂ IsLowerForm word forms) : AsciiAlike forms.flatten (lowerWord word) := by
  induction h with
  | nil => exact fun _ _ => ⟨Iff.rfl, Iff.rfl⟩
  | cons hform _ ih =>
    rw [List.flatten_cons, lowerWord_cons]
    cases hform with
    | ascii hc => exact lowerCase_of_ascii hc ▸ ih.append_left _
    | kelvinSign => exact ih.append_left ['k']
    | dottedCapitalI => exact ih.append_left ['i', '\u0307']
    | other hc hkelvin hdotted hne hform =>
      rw [lowerCase_of_other hc hkelvin hdotted]
      exact ih.append_other hne (List.cons_ne_nil _ _) hform fun d hd => by rwa [List.mem_singleton.mp hd]

/-- **All ways of writing words in lower case find the same ASCII words.** -/
theorem LowerCasing.infix_apply_iff (lower : LowerCasing) {w : List Char} (hw : ∀ c ∈ w, c.toNat < 128)
    (word : List Char) : w <:+: lower word ↔ w <:+: lowerWord word := by
  obtain ⟨forms, hforms, heq⟩ := lower.exists_forms word
  rw [← heq]
  exact (asciiAlike_of_forms hforms w hw).2

/-! ## Numbers -/

/-- A plus sign is not a digit. -/
theorem digits?_cons_plus (limit : ℕ) (word : List Char) : digits? limit ('+' :: word) = none := by
  rw [digits?, if_neg]
  rintro ⟨-, hall, -⟩
  rw [List.all_cons, Bool.and_eq_true] at hall
  exact absurd hall.1 (by decide)

theorem unsigned?_eq_some_iff {limit k : ℕ} {word : List Char} :
    unsigned? limit word = some k ↔
      ∃ plus digits, word = plus ++ digits ∧ plus ∈ [[], ['+']] ∧ digits? limit digits = some k := by
  constructor
  · intro h
    unfold unsigned? at h
    split at h
    · next digits => exact ⟨['+'], digits, rfl, by decide, h⟩
    · exact ⟨[], word, rfl, by decide, h⟩
  · rintro ⟨plus, digits, rfl, hplus, h⟩
    rcases List.mem_pair.mp hplus with rfl | rfl
    · rw [List.nil_append]
      unfold unsigned?
      split
      · rw [digits?_cons_plus] at h
        exact absurd h.symm (Option.some_ne_none k)
      · exact h
    · exact h

end Text

namespace DeckLine

open Text

/-! ## Headings -/

theorem isDeckWord_iff (lower : LowerCasing) {word : List Char} :
    isDeckWord word = true ↔ "deck".toList <:+: lower word := by
  rw [isDeckWord, occursIn_iff, lower.infix_apply_iff (by simp)]

theorem isSideWord_iff (lower : LowerCasing) {word : List Char} :
    isSideWord word = true ↔ "side".toList <:+: lower word := by
  rw [isSideWord, occursIn_iff, lower.infix_apply_iff (by simp)]

/-! ## Quantities -/

/-- The word says the quantity `k`: a plus sign or none, at least one digit and any number of them, and one x or
none.  It is not above the largest count. -/
def IsQuantity (word : List Char) (k : ℕ) : Prop :=
  ∃ plus digits times : List Char, word = plus ++ digits ++ times ∧ plus ∈ [[], ['+']] ∧
    times ∈ [[], ['x'], ['X']] ∧ digits ≠ [] ∧ (∀ d ∈ digits, isDigit d = true) ∧ digitsValue digits = k ∧
    k ≤ maxCount

theorem exists_eq_dropTimes_append (word : List Char) :
    ∃ times ∈ [[], ['x'], ['X']], word = dropTimes word ++ times := by
  unfold dropTimes
  split
  · next h =>
    rcases h with h | h
    · exact ⟨['x'], by decide, (List.dropLast_append_getLast? _ h).symm⟩
    · exact ⟨['X'], by decide, (List.dropLast_append_getLast? _ h).symm⟩
  · exact ⟨[], by decide, (List.append_nil _).symm⟩

/-- Only one x is dropped, and nothing of the digits. -/
theorem dropTimes_append {word digits times : List Char} (hne : digits ≠ [])
    (hdigits : ∀ d ∈ digits, isDigit d = true) (htimes : times ∈ [[], ['x'], ['X']]) :
    dropTimes (word ++ digits ++ times) = word ++ digits := by
  have hlast : ∀ d ∈ (word ++ digits).getLast?, isDigit d = true := by
    intro d hd
    rw [List.getLast?_append_of_ne_nil _ hne] at hd
    exact hdigits d (List.mem_of_mem_getLast? hd)
  unfold dropTimes
  simp only [List.mem_cons, List.not_mem_nil, or_false] at htimes
  rcases htimes with rfl | rfl | rfl
  · rw [List.append_nil, if_neg]
    rintro (h | h)
    · exact absurd (hlast _ h) (by decide)
    · exact absurd (hlast _ h) (by decide)
  · rw [List.getLast?_append_of_ne_nil _ (List.cons_ne_nil _ _), if_pos (.inl rfl), List.dropLast_concat]
  · rw [List.getLast?_append_of_ne_nil _ (List.cons_ne_nil _ _), if_pos (.inr rfl), List.dropLast_concat]

theorem quantity?_eq_some_iff {word : List Char} {k : ℕ} : quantity? word = some k ↔ IsQuantity word k := by
  rw [quantity?, unsigned?_eq_some_iff]
  constructor
  · rintro ⟨plus, digits, hword, hplus, h⟩
    obtain ⟨hne, hall, hvalue, hle⟩ := digits?_eq_some_iff.mp h
    obtain ⟨times, htimes, heq⟩ := exists_eq_dropTimes_append word
    rw [hword] at heq
    exact ⟨plus, digits, times, heq, hplus, htimes, hne, List.all_eq_true.mp hall, hvalue, hle⟩
  · rintro ⟨plus, digits, times, rfl, hplus, htimes, hne, hall, hvalue, hle⟩
    exact ⟨plus, digits, dropTimes_append hne hall htimes, hplus,
      digits?_eq_some_iff.mpr ⟨hne, List.all_eq_true.mpr hall, hvalue, hle⟩⟩

/-- What holds of the plus sign, of the digits and of the x holds of every character of a quantity. -/
theorem IsQuantity.forall_mem {P : Char → Prop} {word : List Char} {k : ℕ} (h : IsQuantity word k) (hplus : P '+')
    (hx : P 'x') (hX : P 'X') (hdigit : ∀ c, isDigit c = true → P c) : ∀ c ∈ word, P c := by
  obtain ⟨plus, digits, times, rfl, hplus', htimes, -, hdigits, -, -⟩ := h
  have hsigns : ∀ c ∈ plus, P c := by
    rcases List.mem_pair.mp hplus' with rfl | rfl
    · exact List.forall_mem_nil P
    · exact List.forall_mem_singleton.mpr hplus
  have hends : ∀ c ∈ times, P c := by
    simp only [List.mem_cons, List.not_mem_nil, or_false] at htimes
    rcases htimes with rfl | rfl | rfl
    · exact List.forall_mem_nil P
    · exact List.forall_mem_singleton.mpr hx
    · exact List.forall_mem_singleton.mpr hX
  exact List.forall_mem_append.mpr
    ⟨List.forall_mem_append.mpr ⟨hsigns, fun c hc => hdigit c (hdigits c hc)⟩, hends⟩

theorem IsQuantity.isBlank_eq_false {word : List Char} {k : ℕ} (h : IsQuantity word k) :
    ∀ c ∈ word, isBlank c = false := by
  refine h.forall_mem (by decide) (by decide) (by decide) fun c hc => ?_
  obtain ⟨hlow, hhigh⟩ := isDigit_iff.mp hc
  simp only [isBlank, Bool.or_eq_false_iff, Bool.and_eq_false_iff, decide_eq_false_iff_not, beq_eq_false_iff_ne]
  omega

/-- There is no e in a quantity, not even in lower case. -/
theorem IsQuantity.e_notMem_lowerWord {word : List Char} {k : ℕ} (h : IsQuantity word k) : 'e' ∉ lowerWord word := by
  have hall : ∀ c ∈ word, 'e' ∉ lowerCase c := by
    refine h.forall_mem (by decide) (by decide) (by decide) fun c hc => ?_
    obtain ⟨hlow, hhigh⟩ := isDigit_iff.mp hc
    have hcode : ∀ n < 58, 48 ≤ n → 'e' ∉ lowerCase (Char.ofNat n) := by decide
    have hc' := hcode c.toNat (by omega) hlow
    rwa [Char.ofNat_toNat] at hc'
  rw [lowerWord, List.mem_flatMap]
  rintro ⟨c, hc, he⟩
  exact hall c hc he

/-- A quantity is no heading: the names of both headings have an e in them. -/
theorem IsQuantity.not_heading {word : List Char} {k : ℕ} (h : IsQuantity word k) :
    isDeckWord word = false ∧ isSideWord word = false := by
  have he : ∀ name : String, 'e' ∈ name.toList → occursIn name.toList (lowerWord word) = false := fun name hname => by
    rw [Bool.eq_false_iff, ne_eq, occursIn_iff]
    exact fun hname' => h.e_notMem_lowerWord (hname'.subset hname)
  exact ⟨he "deck" (by decide), he "side" (by decide)⟩

end DeckLine

end DeckLegality
