import DeckLegality.Json.Numeral

/-!
# JSON trees

A `Json` is a JSON text without its blanks.  It keeps everything that a reader of it may want to refuse later: how
a number is written, the order and the repetitions of the members of an object, and whether a string is text at
all.  A string is no text if it holds one half of a surrogate pair or a byte that belongs to no character; such a
string is harmless where nobody asks for its value.
-/

namespace DeckLegality

/-- A JSON value; a string or key that is `none` is no text. -/
inductive Json where
  | null
  | bool (value : Bool)
  | number (value : Numeral)
  | string (value : Option String)
  | array (items : List Json)
  | object (members : List (Option String × Json))

namespace Json

instance : Inhabited Json := ⟨null⟩

/-- A string with the given text. -/
def text (s : String) : Json := string (some s)

/-- A natural number. -/
def nat (n : Nat) : Json := number (.ofNat n)

/-- An object with the given members. -/
def record (members : List (String × Json)) : Json := object (members.map fun (key, value) => (some key, value))

mutual

/-- The number of arrays and objects that enclose one another. -/
def depth : Json → Nat
  | array items => 1 + depthOfItems items
  | object members => 1 + depthOfMembers members
  | _ => 0

/-- The depth of the deepest item. -/
def depthOfItems : List Json → Nat
  | [] => 0
  | j :: r => max j.depth (depthOfItems r)

/-- The depth of the deepest member. -/
def depthOfMembers : List (Option String × Json) → Nat
  | [] => 0
  | (_, j) :: r => max j.depth (depthOfMembers r)

end

mutual

/-- Whether every string is text and every number is finite as it is computed (`Numeral.isFinite`). -/
def isProper : Json → Bool
  | number n => n.isFinite
  | string s => s.isSome
  | array items => areProper items
  | object members => membersAreProper members
  | _ => true

/-- Whether every item is proper. -/
def areProper : List Json → Bool
  | [] => true
  | j :: r => j.isProper && areProper r

/-- Whether every key is text and every value is proper. -/
def membersAreProper : List (Option String × Json) → Bool
  | [] => true
  | (key, j) :: r => key.isSome && j.isProper && membersAreProper r

end

/-- The most arrays and objects that may enclose one another in a value that is kept before it is understood. -/
def maxDepth : Nat := 127

/-- Whether a value can be kept before it is understood, as the fields of a tagged object are until the tag is
known. -/
def canBeKept (j : Json) : Bool := j.isProper && j.depth ≤ maxDepth

end Json

end DeckLegality
