import DeckLegality.Decklist
import DeckLegality.FormatRules
import DeckLegality.Pairing.Search
import DeckLegality.Printings
import DeckLegality.Verdict

/-!
# Judging a deck

A `Verifier` knows the printings, the sets that exist and the rules of a format.  It judges a main deck, a
sideboard or none, and a choice of legal sets or none; with none, all sets that exist are legal.  A missing
sideboard is not judged by its size, an empty one is.

The violations come in a fixed order: the size of the main deck, the size of the sideboard, the copy limit by
falling count, and the cards that are not legal in the order of the list.
-/

namespace DeckLegality

namespace FormatRules

/-- What is wrong with the size of the main deck. -/
def deckSizeViolations (r : FormatRules) (size : Nat) : List Violation :=
  if size < r.minDeckSize then [.deckTooSmall r.minDeckSize]
  else match r.maxDeckSize with
    | some max => if max < size then [.deckTooLarge max] else []
    | none => []

/-- What is wrong with the size of the sideboard. -/
def sideboardSizeViolations (r : FormatRules) (size : Nat) : List Violation :=
  if size < r.minSideboardSize then [.sideboardTooSmall r.minSideboardSize]
  else if r.maxSideboardSize < size then [.sideboardTooLarge r.maxSideboardSize]
  else []

/-- What is wrong with the sizes of main deck and sideboard. -/
def sizeViolations (r : FormatRules) (maindeck : Decklist) (sideboard : Option Decklist) : List Violation :=
  r.deckSizeViolations maindeck.total ++
    match sideboard with
    | some side => r.sideboardSizeViolations side.total
    | none => []

/-- The cards of which there are too many copies, the most numerous first. -/
def copyLimitViolations (r : FormatRules) (d : Decklist) : List Violation :=
  ((d.mostCommon.takeWhile fun e => r.maxCards < e.2).filter fun e => !r.exemptions.contains e.1).map
    fun e => .tooManyCopies e.1 r.maxCards

end FormatRules

/-- What it takes to judge decks in a format. -/
structure Verifier where
  printings : CardPrintings
  /-- The sets that exist. -/
  allSets : SetCodes
  rules : FormatRules := {}

/-- The verifier of a snapshot for the rules of a format. -/
def Snapshot.verifier (s : Snapshot) (rules : FormatRules) : Verifier := ⟨s.printings, s.allSets, rules⟩

namespace Verifier

/-- The sets that are legal when somebody chose `legal`. -/
def effective (v : Verifier) (legal : Option SetCodes) : SetCodes := legal.getD v.allSets

/-- The cards that are not legal.  The printings of all cards are looked up at once. -/
def legalityViolations (v : Verifier) (d : Decklist) (legal : Option SetCodes) : List Violation :=
  let printings := v.printings.lookup d.names
  (d.names.filter fun n => !printings.isLegal n (v.effective legal)).map .notLegal

/-- The cards that are judged: those of the main deck, with those of the sideboard if there is one. -/
def combined (maindeck : Decklist) : Option Decklist → Decklist
  | some side => maindeck.merged side
  | none => maindeck

/-- Everything that is wrong with a deck. -/
def violations (v : Verifier) (maindeck : Decklist) (sideboard : Option Decklist) (legal : Option SetCodes) :
    List Violation :=
  v.rules.sizeViolations maindeck sideboard
    ++ v.rules.copyLimitViolations (combined maindeck sideboard)
    ++ v.legalityViolations (combined maindeck sideboard) legal

/-- The verdict on a deck. -/
def verify (v : Verifier) (maindeck : Decklist) (sideboard : Option Decklist) (legal : Option SetCodes) :
    Verdict :=
  .ofViolations (v.violations maindeck sideboard legal)

/-- The verdict on a submission, whose sideboard always counts. -/
def verifySubmission (v : Verifier) (s : Submission) (legal : Option SetCodes) : Verdict :=
  v.verify s.maindeck (some s.sideboard) legal

/-- The legal printings of each card of a deck. -/
def candidates (v : Verifier) (d : Decklist) (legal : Option SetCodes) : Candidates :=
  let printings := v.printings.lookup d.names
  .ofList (d.names.map fun n => (n, printings.legalPrintings n (v.effective legal)))

/-- A pairing of every card of a submission with a legal set of its own, if there is one. -/
def pairing? (v : Verifier) (s : Submission) (legal : Option SetCodes) : Option Pairing :=
  (v.candidates s.merged legal).pairing?

end Verifier

end DeckLegality
