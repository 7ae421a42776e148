import DeckLegality.Card
import DeckLegality.Text.Decimal

/-!
# Values that scripts pass

A script passes arguments without declaring their types, so every function it calls says what it takes.  A number
has to be whole; truth values count as 0 and 1.  A number of the right kind may still be out of range, which is a
fault of its own.
-/

namespace DeckLegality.Scripting

/-- A value that a script passes.  What a floating-point number is worth does not matter: it is never taken. -/
inductive Value where
  | nothing
  | bool (value : Bool)
  | int (value : Int)
  | float
  | text (value : String)
  | list (items : List Value)
  | dict (entries : List (String × Value))

instance : Inhabited Value := ⟨.nothing⟩

/-- What is wrong with an argument. -/
inductive ArgumentFault where
  | wrongKind
  | outOfRange
  /-- A tuple has not two items but the given number. -/
  | notTwoItems (items : Nat)
  deriving DecidableEq, Repr

namespace Value

open Text (maxCount maxSize)

/-- The whole number that a value is. -/
def int? : Value → Except ArgumentFault Int
  | bool b => .ok (if b then 1 else 0)
  | int i => .ok i
  | _ => .error .wrongKind

/-- The natural number up to `limit` that a value is. -/
def natUpTo (limit : Nat) (v : Value) : Except ArgumentFault Nat := do
  let i ← v.int?
  if 0 ≤ i ∧ i ≤ limit then .ok i.toNat else .error .outOfRange

/-- A copy count or copy limit. -/
def count (v : Value) : Except ArgumentFault Nat := v.natUpTo maxCount

/-- A deck size. -/
def size (v : Value) : Except ArgumentFault Nat := v.natUpTo maxSize

/-- The text that a value is. -/
def string : Value → Except ArgumentFault String
  | text s => .ok s
  | _ => .error .wrongKind

/-- The list of texts that a value is. -/
def strings : Value → Except ArgumentFault (List String)
  | list items => items.mapM string
  | _ => .error .wrongKind

/-- What `read` makes of a value that may be missing. -/
def optional {α : Type} (read : Value → Except ArgumentFault α) : Value → Except ArgumentFault (Option α)
  | nothing => .ok none
  | v => some <$> read v

/-- The tuple of a card's name and a count that a value is. -/
def entry : Value → Except ArgumentFault (String × Nat)
  | list [name, copies] => return (← name.string, ← copies.count)
  | list items => .error (.notTwoItems items.length)
  | _ => .error .wrongKind

/-- The list of tuples of names and counts that a value is. -/
def entries : Value → Except ArgumentFault (List (String × Nat))
  | list items => items.mapM entry
  | _ => .error .wrongKind

/-- The codes for each of some names that a value is. -/
def printings : Value → Except ArgumentFault (List (String × List String))
  | dict entries => entries.mapM fun (name, codes) => return (name, ← codes.strings)
  | _ => .error .wrongKind

/-- The texts that going through a value yields: the items of a list, the characters of a text or the keys of a
dictionary. -/
def iterated : Value → Except ArgumentFault (List String)
  | list items => items.mapM string
  | text s => .ok (s.toList.map fun c => String.ofList [c])
  | dict entries => .ok (entries.map (·.1))
  | _ => .error .wrongKind

end Value

/-- The codes in some texts. -/
def codesOf (l : List String) : SetCodes := .ofList (l.map (⟨·⟩))

end DeckLegality.Scripting
