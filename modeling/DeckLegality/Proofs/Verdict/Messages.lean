import DeckLegality.Text.Decimal
import DeckLegality.Verdict
import Mathlib.Data.List.Basic
import Mathlib.Data.List.TakeWhile

/-!
# Messages tell what they are about

A message puts the name of a card in front of fixed words, and the name may be anything: it may hold these words, end in
them, or be the word that the messages about decks begin with.  So a message cannot be understood from its beginning.  It
can from its end: the last word is one of a few, and behind it stands the limit, if there is one, in digits.  What is left
are the name of the card and words that are known by then.

`Violation.toList_message` takes a message apart like this, `Text.eq_of_append_blank_eq` is why it can be done in one way
only, and `Violation.eq_of_message_eq` puts the violation together again.
-/

namespace DeckLegality

/-- The last word of a text and what stands before it are known from the text. -/
theorem Text.eq_of_append_blank_eq {front front' word word' : List Char} (hword : ' ' ∉ word) (hword' : ' ' ∉ word')
    (h : front ++ ' ' :: word = front' ++ ' ' :: word') : front = front' ∧ word = word' := by
  have hlast : ∀ front word : List Char, ' ' ∉ word →
      (front ++ ' ' :: word).reverse.takeWhile (· ≠ ' ') = word.reverse := by
    intro front word hword
    have hpos : ∀ c ∈ word.reverse, decide (c ≠ ' ') = true := by
      intro c hc
      refine decide_eq_true ?_
      rintro rfl
      exact hword (List.mem_reverse.mp hc)
    rw [List.reverse_append, List.reverse_cons, List.append_assoc, List.takeWhile_append_of_pos hpos]
    simp
  have hsame : word = word' := by
    rw [← List.reverse_inj, ← hlast front word hword, h, hlast front' word' hword']
  subst hsame
  exact ⟨List.append_cancel_right h, rfl⟩

namespace Violation

/-! ## The parts of a message -/

/-- What the message says before the limit, or before the last word if there is none. -/
def opening : Violation → String
  | deckTooSmall _ => "Deck has less than"
  | deckTooLarge _ => "Deck has more than"
  | sideboardTooSmall _ => "Sideboard has less than"
  | sideboardTooLarge _ => "Sideboard has more than"
  | tooManyCopies card _ => card.text ++ " has more than"
  | notLegal card => card.text ++ " is not"

/-- The limit that was not kept. -/
def limit? : Violation → Option Nat
  | deckTooSmall min => some min
  | deckTooLarge max => some max
  | sideboardTooSmall min => some min
  | sideboardTooLarge max => some max
  | tooManyCopies _ max => some max
  | notLegal _ => none

/-- The last word of the message. -/
def lastWord : Violation → String
  | tooManyCopies _ max => if max = 1 then "copy" else "copies"
  | notLegal _ => "legal"
  | _ => "cards"

/-- All that stands before the last word. -/
def front (v : Violation) : List Char := v.opening.toList ++ v.limit?.elim [] fun k => ' ' :: Nat.toDigits 10 k

variable {v w : Violation}

theorem blank_notMem_lastWord (v : Violation) : ' ' ∉ v.lastWord.toList := by
  cases v with
  | tooManyCopies card max =>
    rw [lastWord]
    split <;> simp
  | _ => simp [lastWord]

theorem toList_message (v : Violation) : v.message.toList = v.front ++ ' ' :: v.lastWord.toList := by
  cases v with
  | deckTooSmall min =>
    have hmessage : (deckTooSmall min).message = "Deck has less than " ++ min.repr ++ " cards" := rfl
    simp [hmessage, front, opening, limit?, lastWord]
  | deckTooLarge max =>
    have hmessage : (deckTooLarge max).message = "Deck has more than " ++ max.repr ++ " cards" := rfl
    simp [hmessage, front, opening, limit?, lastWord]
  | sideboardTooSmall min =>
    have hmessage : (sideboardTooSmall min).message = "Sideboard has less than " ++ min.repr ++ " cards" := rfl
    simp [hmessage, front, opening, limit?, lastWord]
  | sideboardTooLarge max =>
    have hmessage : (sideboardTooLarge max).message = "Sideboard has more than " ++ max.repr ++ " cards" := rfl
    simp [hmessage, front, opening, limit?, lastWord]
  | tooManyCopies card max =>
    have hmessage : (tooManyCopies card max).message =
      card.text ++ (" has more than " ++ max.repr ++ " ") ++ (tooManyCopies card max).lastWord := rfl
    simp [hmessage, front, opening, limit?]
  | notLegal card =>
    have hmessage : (notLegal card).message = card.text ++ " is not legal" := rfl
    simp [hmessage, front, opening, limit?, lastWord]

/-! ## From the parts back to the violation -/

/-- The limit is known from what stands before the last word, once it is known that there is one. -/
theorem eq_of_front_eq (hlimit : v.limit?.isSome = w.limit?.isSome) (h : v.front = w.front) :
    v.opening = w.opening ∧ v.limit? = w.limit? := by
  have hdigits : ∀ k, ' ' ∉ Nat.toDigits 10 k := fun k hk => absurd (Text.isDigit_of_mem_toDigits hk) (by decide)
  rw [front, front] at h
  cases hv : v.limit? with
  | none =>
    cases hw : w.limit? with
    | none =>
      rw [hv, hw] at h
      exact ⟨String.toList_inj.mp (List.append_cancel_right h), rfl⟩
    | some k => simp [hv, hw] at hlimit
  | some k =>
    cases hw : w.limit? with
    | none => simp [hv, hw] at hlimit
    | some l =>
      rw [hv, hw] at h
      obtain ⟨hopening, hkl⟩ := Text.eq_of_append_blank_eq (hdigits k) (hdigits l) h
      have hvalue := congrArg Text.digitsValue hkl
      rw [Text.digitsValue_toDigits, Text.digitsValue_toDigits] at hvalue
      exact ⟨String.toList_inj.mp hopening, congrArg some hvalue⟩

/-- The last word tells whether there is a limit. -/
theorem isSome_limit?_eq (v : Violation) : v.limit?.isSome = decide (v.lastWord ≠ "legal") := by
  cases v with
  | tooManyCopies card max =>
    by_cases hmax : max = 1 <;> simp [limit?, lastWord, hmax]
  | _ => simp [limit?, lastWord]

/-- It also tells whether a card is named. -/
theorem isSome_card?_eq (v : Violation) : v.card?.isSome = decide (v.lastWord ≠ "cards") := by
  cases v with
  | tooManyCopies card max =>
    by_cases hmax : max = 1 <;> simp [card?, lastWord, hmax]
  | _ => simp [card?, lastWord]

/-- The words before the limit tell the rest. -/
theorem eq_of_opening_eq (hcard : v.card?.isSome = w.card?.isSome) (hlimit : v.limit? = w.limit?)
    (hopening : v.opening = w.opening) : v = w := by
  have hname : ∀ card card' : CardName, card = card' ↔ card.text = card'.text := by
    rintro ⟨name⟩ ⟨name'⟩
    rw [CardName.mk.injEq]
  cases v <;> cases w <;> simp_all [opening, limit?, card?]

/-- A message has one violation only that it may come from. -/
theorem eq_of_message_eq (h : v.message = w.message) : v = w := by
  have hparts : v.front ++ ' ' :: v.lastWord.toList = w.front ++ ' ' :: w.lastWord.toList := by
    rw [← toList_message, ← toList_message, h]
  obtain ⟨hfront, hlast⟩ := Text.eq_of_append_blank_eq v.blank_notMem_lastWord w.blank_notMem_lastWord hparts
  have hlast : v.lastWord = w.lastWord := String.toList_inj.mp hlast
  obtain ⟨hopening, hlimit⟩ := eq_of_front_eq (by rw [isSome_limit?_eq, isSome_limit?_eq, hlast]) hfront
  exact eq_of_opening_eq (by rw [isSome_card?_eq, isSome_card?_eq, hlast]) hlimit hopening

end Violation

/-- **Messages are unambiguous.**  Two violations with the same message are the same, whatever their cards are called and
whatever their limits are; so two verdicts with the same messages have the same violations, in the same order. -/
theorem messages_unambiguous :
    (∀ v w : Violation, v.message = w.message ↔ v = w) ∧
    ∀ v w : Verdict, v.messages = w.messages ↔ v.violations = w.violations := by
  have hinj : Function.Injective Violation.message := fun _ _ => Violation.eq_of_message_eq
  exact ⟨fun v w => hinj.eq_iff, fun v w => (List.map_injective_iff.mpr hinj).eq_iff⟩

/-- A card may be called like the beginning of a message, or like a whole message. -/
example :
    (Violation.tooManyCopies ⟨"Deck"⟩ 60).message = "Deck has more than 60 copies" ∧
    (Violation.deckTooLarge 60).message = "Deck has more than 60 cards" ∧
    (Violation.notLegal ⟨"Deck has more than 60 cards"⟩).message = "Deck has more than 60 cards is not legal" := by
  decide +kernel

end DeckLegality
