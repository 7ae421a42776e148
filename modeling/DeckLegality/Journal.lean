import DeckLegality.DecklistText
import DeckLegality.Snapshot.File
import DeckLegality.Verifier

/-!
# The journal

Reading and judging leave notes behind for whoever wants to follow what happened.  A note is a function of what was
read and what came of it, so the readers themselves do not carry a journal along.
-/

namespace DeckLegality

/-- A note in the journal. -/
inductive Note where
  | debug (message : String)
  | trace (message : String)
  deriving DecidableEq, Repr

/-- The line of a note. -/
def Note.line : Note → String
  | debug message => "DEBUG " ++ message
  | trace message => "TRACE " ++ message

namespace Journal

/-- The notes on the headings among some lines, up to the first line at fault. -/
def ofHeadings : List (Nat × DeckLine) → List Note
  | [] => []
  | (number, line) :: lines =>
    match line with
    | .deckHeading word => .trace (s!"line {number}: maindeck header " ++ Text.quote word) :: ofHeadings lines
    | .sideHeading word => .trace (s!"line {number}: sideboard header " ++ Text.quote word) :: ofHeadings lines
    | .card .. => ofHeadings lines
    | .nameless | .unreadable _ => []

/-- The note on a submission that was read. -/
def ofSubmission (s : Submission) : Note :=
  .debug (s!"parsed decklist: {s.maindeck.total} maindeck cards ({s.maindeck.size} distinct), "
    ++ s!"{s.sideboard.total} sideboard cards ({s.sideboard.size} distinct)")

/-- The notes on reading a decklist. -/
def ofText (text : String) : List Note :=
  ofHeadings (numberedLines text) ++
    match Submission.ofText text with
    | .ok s => [ofSubmission s]
    | .error _ => []

/-- The notes on reading a decklist file. -/
def ofDecklistFile (path : String) (contents : FileContents) : List Note :=
  match FileContents.text contents with
  | .ok text => .debug s!"read decklist from {path}" :: ofText text
  | .error _ => []

/-- The notes on judging the cards `d`. -/
def ofVerdict (d : Decklist) (v : Verdict) : List Note :=
  .debug s!"verified {d.total} cards ({d.size} distinct): {v.violations.length} violations"
    :: v.violations.map fun x => .trace ("violation: " ++ x.message)

/-- The notes on reading a snapshot file. -/
def ofSnapshotFile (path : String) : Except SnapshotError Snapshot → List Note
  | .ok s => [.debug s!"loaded printing snapshot {path}: {s.printings.size} cards, {s.allSets.size} sets"]
  | .error _ => []

end Journal

end DeckLegality
