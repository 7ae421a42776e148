import DeckLegality.CommandLine.Answer

/-!
# The command

Reads the files that the command line names and prints the answer.
-/

namespace DeckLegality

/-- What the system says about a failure. -/
def faultOf : IO.Error → FileFault
  | .noFileOrDirectory .. => .notFound
  | .inappropriateType _ 20 _ => .notDirectory
  | .inappropriateType .. => .isDirectory
  | .invalidArgument _ 36 _ => .nameTooLong
  | e => .other (toString e)

/-- The contents of the file at a path. -/
def contentsOf (path : String) : IO FileContents := do
  try return .ok (← IO.FS.readBinFile path)
  catch e => return .error (faultOf e)

end DeckLegality

open DeckLegality in
/-- Judges the deck that the command line names. -/
def main (args : List String) : IO UInt32 := do
  let answer ← match Invocation.ofArgs? args with
    | some (.judge request) => do
      let snapshot ← contentsOf request.snapshot
      let decklist ← contentsOf request.decklist
      pure (request.answer fun path => if path = request.snapshot then snapshot else decklist)
    | _ => pure (Invocation.answer args fun _ => .error .notFound)
  for line in answer.lines do
    IO.println line
  if let some error := answer.error then
    IO.eprintln ("error: " ++ error)
  return answer.exit.toUInt32
