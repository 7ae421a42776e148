import DeckLegality.Card

/-!
# Verdicts

A deck is valid, or it is invalid for a list of reasons, the violations.  Each violation has a message.
-/

namespace DeckLegality

/-- Something that the rules of a format do not allow. -/
inductive Violation where
  | deckTooSmall (min : Nat)
  | deckTooLarge (max : Nat)
  | sideboardTooSmall (min : Nat)
  | sideboardTooLarge (max : Nat)
  | tooManyCopies (card : CardName) (max : Nat)
  | notLegal (card : CardName)
  deriving DecidableEq, Repr

namespace Violation

/-- The card that is at fault, if a single one is. -/
def card? : Violation → Option CardName
  | tooManyCopies card _ => some card
  | notLegal card => some card
  | _ => none

/-- The message to the owner of the deck. -/
def message : Violation → String
  | deckTooSmall min => s!"Deck has less than {min} cards"
  | deckTooLarge max => s!"Deck has more than {max} cards"
  | sideboardTooSmall min => s!"Sideboard has less than {min} cards"
  | sideboardTooLarge max => s!"Sideboard has more than {max} cards"
  | tooManyCopies card max => card.text ++ s!" has more than {max} " ++ if max = 1 then "copy" else "copies"
  | notLegal card => card.text ++ " is not legal"

end Violation

/-- The outcome of judging a deck. -/
inductive Verdict where
  | valid
  | invalid (violations : List Violation)
  deriving DecidableEq, Repr

namespace Verdict

/-- The verdict on a deck with the given violations. -/
def ofViolations : List Violation → Verdict
  | [] => valid
  | violations => invalid violations

/-- Whether the deck is valid. -/
def isValid : Verdict → Bool
  | valid => true
  | invalid _ => false

/-- The reasons why the deck is not valid. -/
def violations : Verdict → List Violation
  | valid => []
  | invalid violations => violations

/-- The messages of all violations. -/
def messages (v : Verdict) : List String := v.violations.map (·.message)

@[simp] theorem violations_ofViolations (l : List Violation) : (ofViolations l).violations = l := by
  cases l <;> rfl

theorem isValid_ofViolations (l : List Violation) : (ofViolations l).isValid = l.isEmpty := by
  cases l <;> rfl

end Verdict

end DeckLegality
