import DeckLegality.Decklist
import DeckLegality.FileFault
import DeckLegality.Text.LowerCase
import DeckLegality.Text.Quoted

/-!
# Decklists as text

A decklist is written one card a line: a quantity, which may end in an x, and the card's name.  The first line
that is not blank may be a heading of the main deck, and any line may be a heading of the sideboard; a heading is
known by its first word, which has "deck" or "side" in it, in whatever case.  From the first sideboard heading on
all cards go into the sideboard.

Reading takes two steps.  `numberedLines` says what each line is, for which only the line itself counts and whether
it is the first one that is not blank.  `assemble` then puts the cards of the lines together and stops at the first
line that is at fault.
-/

namespace DeckLegality

/-- What is wrong with the text of a decklist. -/
inductive DecklistFault where
  /-- The first word of a line is neither a quantity nor a heading. -/
  | invalidQuantity (line : Nat) (word : String)
  /-- A line has a quantity and nothing else. -/
  | missingCardName (line : Nat)
  deriving DecidableEq, Repr

namespace DecklistFault

/-- The number of the line at fault, counted from 1. -/
def line : DecklistFault → Nat
  | invalidQuantity line _ => line
  | missingCardName line => line

/-- The report on a fault. -/
def message : DecklistFault → String
  | invalidQuantity line word =>
    "each line, except for maindeck and sideboard headings, must start with an integer; "
      ++ s!"line {line} starts with " ++ Text.quote word
  | missingCardName line => s!"line {line} has a quantity but no card name"

end DecklistFault

/-! ## What a line says -/

/-- What a line of a decklist says. -/
inductive DeckLine where
  /-- A heading of the main deck, with its first word. -/
  | deckHeading (word : String)
  /-- A heading of the sideboard, with its first word. -/
  | sideHeading (word : String)
  /-- Some copies of a card. -/
  | card (copies : Nat) (name : CardName)
  /-- A quantity without a card. -/
  | nameless
  /-- A line that starts with neither a quantity nor a heading, with its first word. -/
  | unreadable (word : String)
  deriving DecidableEq, Repr

namespace DeckLine

open Text

/-- The word without one x at its end, in either case. -/
def dropTimes (word : List Char) : List Char :=
  if word.getLast? = some 'x' ∨ word.getLast? = some 'X' then word.dropLast else word

/-- The quantity that a word stands for: a plus sign or none, digits, and one x or none. -/
def quantity? (word : List Char) : Option Nat :=
  unsigned? maxCount (dropTimes word)

/-- Whether a line with this first word can be a heading of the main deck. -/
def isDeckWord (word : List Char) : Bool := occursIn "deck".toList (lowerWord word)

/-- Whether a line with this first word is a heading of the sideboard. -/
def isSideWord (word : List Char) : Bool := occursIn "side".toList (lowerWord word)

/-- What a trimmed line says; `isFirst` if no line before it says anything. -/
def ofLine (isFirst : Bool) (line : List Char) : DeckLine :=
  let (word, rest) := splitWord line
  if isFirst && isDeckWord word then deckHeading (String.ofList word)
  else if isSideWord word then sideHeading (String.ofList word)
  else match quantity? word with
    | none => unreadable (String.ofList word)
    | some copies => if rest.isEmpty then nameless else card copies ⟨String.ofList rest⟩

/-- What the lines say that are not blank, with their numbers; `number` is the number of the first line and
`isFirst` holds until a line says something. -/
def number (number : Nat) (isFirst : Bool) : List (List Char) → List (Nat × DeckLine)
  | [] => []
  | raw :: lines =>
    let line := trim raw
    if line.isEmpty then DeckLine.number (number + 1) isFirst lines
    else (number, ofLine isFirst line) :: DeckLine.number (number + 1) false lines

end DeckLine

/-- What the lines of a text say that are not blank, with their numbers, counted from 1. -/
def numberedLines (text : String) : List (Nat × DeckLine) :=
  DeckLine.number 1 true (Text.lines text.toList)

/-! ## Putting the cards together -/

/-- The submission with the cards of some lines added; `inSideboard` after a heading of the sideboard. -/
def Submission.assemble (inSideboard : Bool) (s : Submission) :
    List (Nat × DeckLine) → Except DecklistFault Submission
  | [] => .ok s
  | (number, line) :: lines =>
    match line with
    | .deckHeading _ => s.assemble inSideboard lines
    | .sideHeading _ => s.assemble true lines
    | .card copies name =>
      if inSideboard then assemble true { s with sideboard := s.sideboard.add name copies } lines
      else assemble false { s with maindeck := s.maindeck.add name copies } lines
    | .nameless => .error (.missingCardName number)
    | .unreadable word => .error (.invalidQuantity number word)

/-- The submission that a text describes, or the fault of its first line at fault. -/
def Submission.ofText (text : String) : Except DecklistFault Submission :=
  assemble false default (numberedLines text)

/-- Two decks that were read are compared by their entries, and never by their positions, which are functions. -/
instance (priority := 1500) : DecidableEq (Except DecklistFault Submission)
  | .ok s, .ok t => decidable_of_iff (s = t) ⟨congrArg _, Except.ok.inj⟩
  | .error e, .error f => decidable_of_iff (e = f) ⟨congrArg _, Except.error.inj⟩
  | .ok _, .error _ => isFalse (by simp)
  | .error _, .ok _ => isFalse (by simp)

/-! ## Decklist files -/

/-- Why there is no decklist in a file. -/
inductive DecklistError where
  | text (fault : DecklistFault)
  | file (path : String) (fault : FileFault)
  deriving DecidableEq, Repr

namespace DecklistError

/-- The number of the line at fault, if the file could be read. -/
def line? : DecklistError → Option Nat
  | text fault => some fault.line
  | file .. => none

/-- The report on an error. -/
def message : DecklistError → String
  | text fault => fault.message
  | file path fault => s!"could not read decklist {path}: {fault.message}"

end DecklistError

/-- The text of a file. -/
def FileContents.text (contents : FileContents) : Except FileFault String := do
  match String.fromUTF8? (← contents) with
  | some text => .ok text
  | none => .error .notText

/-- The submission that a decklist file describes. -/
def Submission.ofFile (path : String) (contents : FileContents) : Except DecklistError Submission := do
  let text ← (FileContents.text contents).mapError (.file path)
  (ofText text).mapError .text

end DeckLegality
