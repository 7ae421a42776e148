import DeckLegality.FileFault

/-!
# Directories of files

A `FileTree` holds files and directories below a root directory.  Paths are followed as a Unix system follows them:
step by step, from the root or, if they start with a slash, from the top of the system, where every step but the
last has to lead to a directory.

A `Place` is where steps have led to.  What lies above the root is a directory, and so is the top of the system;
nothing else beside the root is known.
-/

namespace DeckLegality

/-- What there is at a place. -/
inductive FileNode where
  | file (bytes : ByteArray)
  | directory
  deriving Inhabited

/-- A place, by the names on the way to it from the root.  The names may come after some `..`, for directories above
the root, or after a slash, for the top of the system. -/
abbrev Place := List String

namespace Place

/-- The root. -/
def root : Place := []

/-- The top of the system. -/
def top : Place := ["/"]

/-- Whether the place is the root, a directory above it or the top of the system. -/
def isOuter (p : Place) : Bool := p = top || p.all (· = "..")

/-- The directory that a place is in.  The top of the system is in itself. -/
def parent (p : Place) : Place :=
  if p = top then top else if p.all (· = "..") then p ++ [".."] else p.dropLast

/-- Where a path starts. -/
def start (path : String) : Place := if path.startsWith "/" then top else root

end Place

/-- The files and directories that were put at some places. -/
structure FileTree where
  nodes : List (Place × FileNode) := []
  deriving Inhabited

namespace FileTree

/-- What there is at a place.  There is a directory wherever something is further down. -/
def node? (t : FileTree) (place : Place) : Option FileNode :=
  if place.isOuter then some .directory
  else match t.nodes.find? (·.1 = place) with
    | some (_, node) => some node
    | none => if t.nodes.any fun e => place.isPrefixOf e.1 then some .directory else none

/-- The tree with `node` at a place. -/
def put (t : FileTree) (place : Place) (node : FileNode) : FileTree :=
  ⟨(place, node) :: t.nodes.filter (·.1 ≠ place)⟩

/-- The longest name that a file can have, in bytes. -/
def maxName : Nat := 255

/-- The longest path that can be followed, in bytes. -/
def maxPath : Nat := 4095

/-- A path that can be followed: it has no NUL character in it and is not too long. -/
def checkPath (path : String) : Except FileFault Unit :=
  if path.toList.contains '\x00' then .error .nulInName
  else if maxPath < path.utf8ByteSize then .error .nameTooLong
  else .ok ()

/-- Follows some steps from a place where something is, to a place where something is. -/
def follow (t : FileTree) (place : Place) : (steps : List String) → Except FileFault Place
  | [] => .ok place
  | step :: steps =>
    match t.node? place with
    | some .directory =>
      if step = "" ∨ step = "." then t.follow place steps
      else if step = ".." then t.follow place.parent steps
      else if maxName < step.utf8ByteSize then .error .nameTooLong
      else
        match t.node? (place ++ [step]) with
        | some _ => t.follow (place ++ [step]) steps
        | none => .error .notFound
    | _ => .error .notDirectory

/-- The contents of the file at a path. -/
def read (t : FileTree) (path : String) : FileContents := do
  checkPath path
  match t.node? (← t.follow (.start path) (path.splitOn "/")) with
  | some (.file bytes) => .ok bytes
  | _ => .error .isDirectory

/-- The steps of a path without empty ones at its end. -/
def withoutTrailing (steps : List String) : List String := (steps.reverse.dropWhile (· = "")).reverse

/-- The tree with a file at a path, in place of an earlier one.  The directory has to be there, and a path that
ends in a slash leads to no file. -/
def write (t : FileTree) (path : String) (bytes : ByteArray) : Except FileFault FileTree := do
  checkPath path
  let steps := withoutTrailing (path.splitOn "/")
  let place ← t.follow (.start path) steps.dropLast
  let name := steps.getLast?.getD ""
  match t.node? place with
  | some .directory =>
    if name = "" ∨ name = "." ∨ name = ".." ∨ path.endsWith "/" then throw .isDirectory
    else if maxName < name.utf8ByteSize then throw .nameTooLong
    else
      match t.node? (place ++ [name]) with
      | some .directory => throw .isDirectory
      | _ => return t.put (place ++ [name]) (.file bytes)
  | _ => throw .notDirectory

end FileTree

end DeckLegality
