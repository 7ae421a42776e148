/-!
# Blank space in text

Decklists are written by hand, so lines come with stray spaces at both ends and between their words.  What
counts as a space is Unicode's `White_Space` property, which is fixed to 25 code points.  The information
separators U+001C to U+001F, the zero-width spaces and the byte order mark are not among them.

Text is cut into lines at line feeds only.  A carriage return before a line feed is blank, so trimming a line
removes it.
-/

namespace DeckLegality.Text

/-- Whether a character has Unicode's `White_Space` property. -/
def isBlank (c : Char) : Bool :=
  let n := c.toNat
  (9 ≤ n && n ≤ 13) || n == 0x20 || n == 0x85 || n == 0xA0 || n == 0x1680 || (0x2000 ≤ n && n ≤ 0x200A)
    || n == 0x2028 || n == 0x2029 || n == 0x202F || n == 0x205F || n == 0x3000

/-- The text without the blanks at its start. -/
def trimStart (s : List Char) : List Char :=
  s.dropWhile isBlank

/-- The text without the blanks at its end. -/
def trimEnd (s : List Char) : List Char :=
  (trimStart s.reverse).reverse

/-- The text without the blanks at either end. -/
def trim (s : List Char) : List Char :=
  trimEnd (trimStart s)

/-- The string without the blanks at its ends. -/
def trimmed (s : String) : String :=
  String.ofList (trim s.toList)

/-- `linesFrom current s` are the lines of `s` when `current`, read backwards, has already been read of the
first one. -/
def linesFrom (current : List Char) : List Char → List (List Char)
  | [] => if current.isEmpty then [] else [current.reverse]
  | c :: r => if c = '\n' then current.reverse :: linesFrom [] r else linesFrom (c :: current) r

/-- The lines of a text.  A line feed ends a line; characters after the last line feed are one more line. -/
def lines (s : List Char) : List (List Char) :=
  linesFrom [] s

/-- The first word of a trimmed line and what follows it, trimmed. -/
def splitWord (line : List Char) : List Char × List Char :=
  (line.takeWhile (!isBlank ·), trim (line.dropWhile (!isBlank ·)))

/-- Whether `word` occurs in a text as an unbroken run of characters. -/
def occursIn (word : List Char) : List Char → Bool
  | [] => word.isEmpty
  | c :: r => word.isPrefixOf (c :: r) || occursIn word r

@[simp] theorem trim_nil : trim [] = [] := rfl

theorem occursIn_iff {word s : List Char} : occursIn word s = true ↔ word <:+: s := by
  induction s with
  | nil => cases word <;> simp [occursIn]
  | cons c r ih => simp [occursIn, ih, List.infix_cons_iff]

end DeckLegality.Text
