/-!
# Lower case, as far as ASCII words can tell

A heading of a decklist is recognised by an English word somewhere in the lower-case form of a line's first
word.  To decide that, only those characters matter whose lower-case form contains an ASCII letter.  Apart from
the ASCII letters these are the Kelvin sign U+212A, a capital k, and the capital I with a dot above U+0130, whose
lower-case form is an i followed by a combining dot.  Every other character stands for itself here.
-/

namespace DeckLegality.Text

/-- The lower-case form of a character, where it contains an ASCII letter; else the character itself. -/
def lowerCase (c : Char) : List Char :=
  if 'A' ≤ c ∧ c ≤ 'Z' then [Char.ofNat (c.toNat + 32)]
  else if c = '\u0130' then ['i', '\u0307']
  else if c = '\u212a' then ['k']
  else [c]

/-- The lower-case form of a word, character by character. -/
def lowerWord (word : List Char) : List Char :=
  word.flatMap lowerCase

@[simp] theorem lowerWord_nil : lowerWord [] = [] := rfl

@[simp] theorem lowerWord_cons (c : Char) (word : List Char) :
    lowerWord (c :: word) = lowerCase c ++ lowerWord word := rfl

end DeckLegality.Text
