import DeckLegality.FileFault
import DeckLegality.Json.Decks
import DeckLegality.Json.Reader
import DeckLegality.Json.Writer
import DeckLegality.Snapshot.Binary

/-!
# Snapshot files

A snapshot is kept in a file, as JSON if the file's name ends in `.json`, in whatever case, and in the binary form
otherwise.  A name that consists of an ending only, such as `.json`, has no ending in this sense.
-/

namespace DeckLegality

namespace Snapshot

/-! ## Snapshots as JSON -/

/-- A snapshot in the order of a listing, as JSON. -/
def Listing.toJson (l : Listing) : Json :=
  .record [("printings", .record (l.printings.map fun (n, codes) => (n.text, .array (codes.map (·.toJson))))),
    ("all_sets", .array (l.allSets.map (·.toJson)))]

/-- The snapshot as JSON. -/
def toJson (s : Snapshot) : Json := s.listing.toJson

/-- Reads a stored snapshot. -/
def ofJson? (j : Json) : Option Snapshot := do
  let [printings, allSets] ← j.allFields? ["printings", "all_sets"] | none
  return ⟨← CardPrintings.ofJson? printings, ← SetCodes.ofJson? allSets⟩

end Snapshot

namespace Json

/-- The source from the byte `i` on; `steps` bounds the number of characters. -/
def sourceFrom (bytes : ByteArray) : (steps i : Nat) → Source
  | 0, _ => []
  | steps + 1, i =>
    if i < bytes.size then
      match bytes.utf8DecodeChar? i with
      | some c => some c :: sourceFrom bytes steps (i + c.utf8Size)
      | none => none :: sourceFrom bytes steps (i + 1)
    else []

/-- The characters of some bytes, in which a byte may belong to no character. -/
def source (bytes : ByteArray) : Source :=
  match String.fromUTF8? bytes with
  | some s => s.toList.map some
  | none => sourceFrom bytes bytes.size 0

end Json

/-! ## Files -/

/-- How a snapshot is kept in a file. -/
inductive SnapshotFormat where
  | json
  | binary
  deriving DecidableEq, Repr

/-- The name of the file that a path leads to, if it does not end by going up. -/
def fileName? (path : String) : Option String :=
  match ((path.splitOn "/").filter fun part => part ≠ "" ∧ part ≠ ".").getLast? with
  | some ".." => none
  | name => name

/-- What follows the last dot of a file's name, unless nothing comes before that dot. -/
def extension? (name : String) : Option String :=
  match name.toList.reverse.span (· ≠ '.') with
  | (ending, _ :: _ :: _) => some (String.ofList ending.reverse)
  | _ => none

/-- The format of the snapshot file at a path. -/
def SnapshotFormat.ofPath (path : String) : SnapshotFormat :=
  match (fileName? path).bind extension? with
  | some ending => if ending.map Char.toLower = "json" then json else binary
  | none => binary

/-- Why there is no snapshot in a file. -/
inductive SnapshotError where
  | json
  | binary
  | file (path : String) (fault : FileFault)
  deriving DecidableEq, Repr

/-- The report on an error. -/
def SnapshotError.message : SnapshotError → String
  | json => "invalid snapshot JSON"
  | binary => "invalid binary snapshot"
  | file path fault => s!"could not access snapshot {path}: {fault.message}"

namespace Snapshot

/-- Reads a snapshot from JSON text. -/
def ofJsonText (text : String) : Except SnapshotError Snapshot :=
  match (Json.ofText? text).bind ofJson? with
  | some s => .ok s
  | none => .error .json

/-- Reads a snapshot from its binary form. -/
def ofBytes (bytes : List UInt8) : Except SnapshotError Snapshot :=
  match ofBytes? bytes with
  | some s => .ok s
  | none => .error .binary

/-- Reads a snapshot from a file in the given format. -/
def decode (bytes : ByteArray) : SnapshotFormat → Except SnapshotError Snapshot
  | .json =>
    match (Json.read? (Json.source bytes)).bind ofJson? with
    | some s => .ok s
    | none => .error .json
  | .binary => ofBytes bytes.data.toList

/-- The contents of a file in the given format. -/
def encode (s : Snapshot) : SnapshotFormat → ByteArray
  | .json => s.toJson.render.toUTF8
  | .binary => s.toBytes.toByteArray

/-- The snapshot in the file at a path. -/
def ofFile (path : String) (contents : FileContents) : Except SnapshotError Snapshot :=
  match contents with
  | .ok bytes => decode bytes (.ofPath path)
  | .error fault => .error (.file path fault)

/-- What the file at a path has to contain to keep the snapshot. -/
def toFile (s : Snapshot) (path : String) : ByteArray := s.encode (.ofPath path)

end Snapshot

end DeckLegality
