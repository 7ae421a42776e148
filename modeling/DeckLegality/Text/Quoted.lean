import DeckLegality.Text.Unprintable

/-!
# Quoted text

A message that blames a word shows it between double quotes, so that its ends can be seen.  Inside, a double
quote and a backslash get a backslash in front; tab, line feed, carriage return and NUL are written with a
letter or digit; and what does not show by itself is written as its code point in lower-case hexadecimal
digits.  A single quote stays as it is.
-/

namespace DeckLegality.Text

/-- The lower-case hexadecimal digits of a number, without leading zeros. -/
def hexDigits (n : Nat) : List Char := Nat.toDigits 16 n

/-- How a character is written between double quotes. -/
def quoteChar (c : Char) : List Char :=
  match c with
  | '"' => ['\\', '"']
  | '\\' => ['\\', '\\']
  | '\t' => ['\\', 't']
  | '\n' => ['\\', 'n']
  | '\r' => ['\\', 'r']
  | '\x00' => ['\\', '0']
  | c => if isUnprintable c then ['\\', 'u', '\x7b'] ++ hexDigits c.toNat ++ ['\x7d'] else [c]

/-- The text between double quotes. -/
def quote (s : String) : String :=
  String.ofList ('"' :: s.toList.flatMap quoteChar ++ ['"'])

end DeckLegality.Text
