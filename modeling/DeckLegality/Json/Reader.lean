import DeckLegality.Json.Tree

/-!
# Reading JSON

The grammar is the strict one: blanks are space, tab, line feed and carriage return; there are no comments, no
trailing commas and no leading zeros; a control character in a string must be escaped; and nothing but blanks may
follow the value.

A `Source` is a text of which some bytes may belong to no character.  Such a byte can only stand in a string, and
makes it no text.  Every reader takes what it reads off the front of a source and gives back the rest.  The depth
of a value is not limited, so the readers of values take a bound on the number of steps; `read?` gives them the
length of the source, which no source exhausts.
-/

namespace DeckLegality.Json

/-- Text to be read; `none` stands for a byte that belongs to no character. -/
abbrev Source := List (Option Char)

/-- The source without the blanks at its start. -/
def skipBlanks : Source → Source
  | some c :: r => if c = ' ' ∨ c = '\t' ∨ c = '\n' ∨ c = '\r' then skipBlanks r else some c :: r
  | s => s

/-! ## Strings -/

/-- What has been read of a string. -/
structure Content where
  /-- The characters, the last one first, as long as the string is text. -/
  chars : Option (List Char) := some []
  /-- The first half of a surrogate pair, if the second one is due. -/
  high : Option Nat := none

namespace Content

/-- The string is no text. -/
def spoiled : Content := ⟨none, none⟩

/-- A character follows. -/
def push (t : Content) (c : Char) : Content :=
  if t.high.isSome then spoiled else { t with chars := t.chars.map (c :: ·) }

/-- A 16-bit unit follows: a character or one half of a surrogate pair. -/
def pushUnit (t : Content) (u : Nat) : Content :=
  let isHigh := 0xD800 ≤ u && u < 0xDC00
  let isLow := 0xDC00 ≤ u && u < 0xE000
  match t.high with
  | some h =>
    if isLow then ⟨t.chars.map (Char.ofNat (0x10000 + (h - 0xD800) * 0x400 + (u - 0xDC00)) :: ·), none⟩
    else spoiled
  | none => if isHigh then { t with high := some u } else if isLow then spoiled else t.push (Char.ofNat u)

/-- The text of the string, when it ends here. -/
def finish (t : Content) : Option String :=
  if t.high.isSome then none else t.chars.map fun cs => String.ofList cs.reverse

end Content

/-- The value of a hexadecimal digit. -/
def hexValue? (c : Option Char) : Option Nat := do
  let c ← c
  if '0' ≤ c ∧ c ≤ '9' then some (c.toNat - '0'.toNat)
  else if 'a' ≤ c ∧ c ≤ 'f' then some (c.toNat - 'a'.toNat + 10)
  else if 'A' ≤ c ∧ c ≤ 'F' then some (c.toNat - 'A'.toNat + 10)
  else none

/-- The value of four hexadecimal digits. -/
def unit? (a b c d : Option Char) : Option Nat := do
  some (4096 * (← hexValue? a) + 256 * (← hexValue? b) + 16 * (← hexValue? c) + (← hexValue? d))

/-- The character that a backslash and the given one stand for. -/
def escape? : Char → Option Char
  | '"' => some '"'
  | '\\' => some '\\'
  | '/' => some '/'
  | 'b' => some '\x08'
  | 'f' => some '\x0c'
  | 'n' => some '\n'
  | 'r' => some '\r'
  | 't' => some '\t'
  | _ => none

/-- Reads on in a string, up to the double quote at its end. -/
def readString (t : Content) : Source → Option (Option String × Source)
  | [] => none
  | none :: r => readString .spoiled r
  | some '"' :: r => some (t.finish, r)
  | some '\\' :: some 'u' :: a :: b :: c :: d :: r =>
    match unit? a b c d with
    | some u => readString (t.pushUnit u) r
    | none => none
  | some '\\' :: some e :: r =>
    match escape? e with
    | some c => readString (t.push c) r
    | none => none
  | some '\\' :: _ => none
  | some c :: r => if c.toNat < 0x20 then none else readString (t.push c) r

/-! ## Numbers -/

/-- Takes the digits off the front. -/
def readDigits : Source → List Char × Source
  | some c :: r =>
    if Text.isDigit c then
      let (digits, rest) := readDigits r
      (c :: digits, rest)
    else ([], some c :: r)
  | s => ([], s)

/-- Reads the digits of a number before the point; only the number zero starts with a zero. -/
def readWhole (s : Source) : Option (List Char × Source) :=
  match readDigits s with
  | ([], _) => none
  | ('0' :: _ :: _, _) => none
  | (digits, r) => some (digits, r)

/-- Reads the point and the digits after it, if there is a point. -/
def readFraction : Source → Option (List Char × Source)
  | some '.' :: s =>
    match readDigits s with
    | ([], _) => none
    | (digits, r) => some (digits, r)
  | s => some ([], s)

/-- Takes a sign off the front and tells whether it is a minus sign. -/
def readSign : Source → Bool × Source
  | some '-' :: s => (true, s)
  | some '+' :: s => (false, s)
  | s => (false, s)

/-- Reads an exponent, if there is one. -/
def readExponent : Source → Option (Option (Bool × List Char) × Source)
  | some c :: s =>
    if c = 'e' ∨ c = 'E' then
      match readDigits (readSign s).2 with
      | ([], _) => none
      | (digits, r) => some (some ((readSign s).1, digits), r)
    else some (none, some c :: s)
  | s => some (none, s)

/-- Reads what follows the minus sign of a number. -/
def readUnsigned (negative : Bool) (s : Source) : Option (Numeral × Source) := do
  let (whole, s) ← readWhole s
  let (fraction, s) ← readFraction s
  let (exponent, s) ← readExponent s
  some (⟨negative, whole, fraction, exponent⟩, s)

/-- Reads a number. -/
def readNumeral : Source → Option (Numeral × Source)
  | some '-' :: s => readUnsigned true s
  | s => readUnsigned false s

/-! ## Values -/

/-- Reads the key of a member and the colon after it. -/
def readKey (s : Source) : Option (Option String × Source) :=
  match skipBlanks s with
  | some '"' :: r =>
    match readString {} r with
    | some (key, r) =>
      match skipBlanks r with
      | some ':' :: r => some (key, r)
      | _ => none
    | none => none
  | _ => none

mutual

/-- Reads a value. -/
def readValue : (steps : Nat) → Source → Option (Json × Source)
  | 0, _ => none
  | steps + 1, s =>
    match skipBlanks s with
    | some 'n' :: some 'u' :: some 'l' :: some 'l' :: r => some (null, r)
    | some 't' :: some 'r' :: some 'u' :: some 'e' :: r => some (bool true, r)
    | some 'f' :: some 'a' :: some 'l' :: some 's' :: some 'e' :: r => some (bool false, r)
    | some '"' :: r => (readString {} r).map fun (s, r) => (string s, r)
    | some '[' :: r =>
      match skipBlanks r with
      | some ']' :: r => some (array [], r)
      | r => (readItems steps [] r).map fun (items, r) => (array items, r)
    | some '\x7b' :: r =>
      match skipBlanks r with
      | some '\x7d' :: r => some (object [], r)
      | r => (readMembers steps [] r).map fun (members, r) => (object members, r)
    | s => (readNumeral s).map fun (n, r) => (number n, r)

/-- Reads the items of an array, up to the bracket at its end; `read` are the items before, the last one first. -/
def readItems : (steps : Nat) → (read : List Json) → Source → Option (List Json × Source)
  | 0, _, _ => none
  | steps + 1, read, s =>
    match readValue steps s with
    | none => none
    | some (j, r) =>
      match skipBlanks r with
      | some ',' :: r => readItems steps (j :: read) r
      | some ']' :: r => some ((j :: read).reverse, r)
      | _ => none

/-- Reads the members of an object, up to the brace at its end; `read` are the members before, the last one
first. -/
def readMembers : (steps : Nat) → (read : List (Option String × Json)) → Source →
    Option (List (Option String × Json) × Source)
  | 0, _, _ => none
  | steps + 1, read, s =>
    match readKey s with
    | none => none
    | some (key, r) =>
      match readValue steps r with
      | none => none
      | some (j, r) =>
        match skipBlanks r with
        | some ',' :: r => readMembers steps ((key, j) :: read) r
        | some '\x7d' :: r => some (((key, j) :: read).reverse, r)
        | _ => none

end

/-- Reads a source that holds one value and blanks around it. -/
def read? (s : Source) : Option Json :=
  match readValue (s.length + 1) s with
  | some (j, r) => if (skipBlanks r).isEmpty then some j else none
  | none => none

/-- Reads a text that holds one value and blanks around it. -/
def ofText? (text : String) : Option Json := read? (text.toList.map some)

end DeckLegality.Json
