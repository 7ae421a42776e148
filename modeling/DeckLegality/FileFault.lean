/-!
# What can go wrong with a file

The causes for which a file cannot be read or written, with the words in which the system reports them.
-/

namespace DeckLegality

/-- Why a file could not be read or written. -/
inductive FileFault where
  /-- There is no file of that name. -/
  | notFound
  /-- A part of the path that should be a directory is a file. -/
  | notDirectory
  /-- The path leads to a directory. -/
  | isDirectory
  /-- A name on the path is longer than a name can be. -/
  | nameTooLong
  /-- A name on the path has a NUL character in it. -/
  | nulInName
  /-- The bytes of the file are no UTF-8 text. -/
  | notText
  /-- Anything else, as the system words it. -/
  | other (report : String)
  deriving DecidableEq, Repr

/-- The report on a fault. -/
def FileFault.message : FileFault → String
  | .notFound => "No such file or directory (os error 2)"
  | .notDirectory => "Not a directory (os error 20)"
  | .isDirectory => "Is a directory (os error 21)"
  | .nameTooLong => "File name too long (os error 36)"
  | .nulInName => "file name contained an unexpected NUL byte"
  | .notText => "stream did not contain valid UTF-8"
  | .other report => report

/-- The contents of a file, or why they cannot be had. -/
abbrev FileContents := Except FileFault ByteArray

end DeckLegality
