import DeckLegality.CommandLine.Request
import DeckLegality.DecklistText
import DeckLegality.Snapshot.File
import DeckLegality.Verifier

/-!
# What the command answers

The command prints its verdict on the deck and, if asked to, a pairing, and its exit status says whether all is
well: 0 if so, 1 if the deck is not valid or there is no pairing, 2 if there is nothing to judge.  In the last case
nothing is printed but an error.  If both files are at fault, the snapshot's error is the one reported.
-/

namespace DeckLegality

/-- What the command answers. -/
structure Answer where
  exit : Nat
  /-- What is printed, line by line. -/
  lines : List String
  error : Option String := none
  deriving DecidableEq, Repr

namespace Answer

/-- The printed text. -/
def stdout (a : Answer) : String := String.join (a.lines.map (· ++ "\n"))

/-- There is nothing to judge. -/
def failed (error : String) : Answer := { exit := 2, lines := [], error := some error }

/-- What is printed about a verdict. -/
def linesOfVerdict : Verdict → List String
  | .valid => ["Valid"]
  | .invalid violations => violations.map (·.message)

/-- What is printed about a pairing, by ascending card. -/
def linesOfPairing : Option Pairing → List String
  | some p => p.toList.map fun (n, code) => n.text ++ ": " ++ code.text
  | none => ["No one-card-per-set assignment exists"]

end Answer

namespace Request

/-- The sets that the request declares legal. -/
def legal (r : Request) : Option SetCodes :=
  if r.sets.isEmpty then none else some (.ofList (r.sets.map (⟨·⟩)))

/-- The answer for a submission and a snapshot that could be read. -/
def judge (r : Request) (snapshot : Snapshot) (submission : Submission) : Answer :=
  let verifier := snapshot.verifier r.rules
  let verdict := verifier.verifySubmission submission r.legal
  if r.unique then
    let pairing := verifier.pairing? submission r.legal
    { exit := if verdict.isValid && pairing.isSome then 0 else 1
      lines := Answer.linesOfVerdict verdict ++ Answer.linesOfPairing pairing }
  else { exit := if verdict.isValid then 0 else 1, lines := Answer.linesOfVerdict verdict }

/-- The answer, where `contents` gives the contents of the file at a path. -/
def answer (r : Request) (contents : String → FileContents) : Answer :=
  match Snapshot.ofFile r.snapshot (contents r.snapshot) with
  | .error e => .failed e.message
  | .ok snapshot =>
    match Submission.ofFile r.decklist (contents r.decklist) with
    | .error e => .failed e.message
    | .ok submission => r.judge snapshot submission

end Request

namespace Invocation

/-- How the command is used. -/
def usage : List String :=
  ["Verifies that a .txt decklist is valid for a format consisting of the given sets",
    "",
    "Usage: verify_decklist [OPTIONS] --printings <PRINTINGS> <DECKLIST> [SETS]...",
    "",
    "Arguments:",
    "  <DECKLIST>  Decklist text file",
    "  [SETS]...   Legal set codes. Defaults to every set in the snapshot",
    "",
    "Options:",
    "      --printings <PRINTINGS>",
    "          Printing snapshot (`.json`, or bincode for any other extension)",
    "      --max-cards <MAX_CARDS>",
    "          Copy limit per card [default: 4]",
    "      --min-deck-size <MIN_DECK_SIZE>",
    "          Minimum main deck size [default: 60]",
    "      --max-deck-size <MAX_DECK_SIZE>",
    "          Maximum main deck size",
    "      --min-sideboard-size <MIN_SIDEBOARD_SIZE>",
    "          Minimum sideboard size [default: 0]",
    "      --max-sideboard-size <MAX_SIDEBOARD_SIZE>",
    "          Maximum sideboard size [default: 15]",
    "      --unique",
    "          Also check the one-card-per-set variant and print the pairing",
    "  -h, --help",
    "          Print help"]

/-- The answer to a command line, where `contents` gives the contents of the file at a path. -/
def answer (args : List String) (contents : String → FileContents) : Answer :=
  match ofArgs? args with
  | some (.judge request) => request.answer contents
  | some .help => { exit := 0, lines := usage }
  | none => .failed "usage"

end Invocation

end DeckLegality
