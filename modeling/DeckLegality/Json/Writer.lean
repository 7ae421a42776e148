import DeckLegality.Json.Tree

/-!
# Writing JSON

JSON is written without blanks.  In a string the double quote, the backslash and the controls are escaped, the
controls by a letter where JSON has one; every other character stands as it is.
-/

namespace DeckLegality.Json

/-- The hexadecimal digit of a number below 16. -/
def hexDigit (n : Nat) : Char := Nat.digitChar n

/-- How a character is written in a string. -/
def writeChar (c : Char) : List Char :=
  match c with
  | '"' => ['\\', '"']
  | '\\' => ['\\', '\\']
  | '\x08' => ['\\', 'b']
  | '\x0c' => ['\\', 'f']
  | '\n' => ['\\', 'n']
  | '\r' => ['\\', 'r']
  | '\t' => ['\\', 't']
  | c =>
    if c.toNat < 0x20 then ['\\', 'u', '0', '0', hexDigit (c.toNat / 16), hexDigit (c.toNat % 16)] else [c]

/-- How a string is written.  One that is no text is written as one half of a surrogate pair. -/
def writeString : Option String → List Char
  | some s => '"' :: s.toList.flatMap writeChar ++ ['"']
  | none => '"' :: '\\' :: 'u' :: 'd' :: '8' :: '0' :: '0' :: ['"']

/-- How a number is written. -/
def writeNumeral (n : Numeral) : List Char :=
  (if n.negative then ['-'] else []) ++ n.whole
    ++ (if n.fraction.isEmpty then [] else '.' :: n.fraction)
    ++ match n.exponent with
      | none => []
      | some (negative, digits) => 'e' :: (if negative then ['-'] else []) ++ digits

mutual

/-- The text of a JSON value. -/
def write : Json → List Char
  | null => ['n', 'u', 'l', 'l']
  | bool true => ['t', 'r', 'u', 'e']
  | bool false => ['f', 'a', 'l', 's', 'e']
  | number n => writeNumeral n
  | string s => writeString s
  | array [] => ['[', ']']
  | array (j :: r) => '[' :: write j ++ writeItems r
  | object [] => ['\x7b', '\x7d']
  | object ((key, j) :: r) => '\x7b' :: writeString key ++ ':' :: write j ++ writeMembers r

/-- The text of the items after the first one, with the bracket at the end. -/
def writeItems : List Json → List Char
  | [] => [']']
  | j :: r => ',' :: write j ++ writeItems r

/-- The text of the members after the first one, with the brace at the end. -/
def writeMembers : List (Option String × Json) → List Char
  | [] => ['\x7d']
  | (key, j) :: r => ',' :: writeString key ++ ':' :: write j ++ writeMembers r

end

/-- The text of a JSON value, as a string. -/
def render (j : Json) : String := String.ofList j.write

end DeckLegality.Json
