import DeckLegality.Json.Tree

/-!
# Taking JSON values apart

The readers of stored values ask a JSON tree for what they need and refuse anything else.  A record may come as an
object, with its members in any order and members that nobody asks for in between, or as an array of its fields in
their order.  No key that is asked for may occur twice in an object.  A tagged record has one more member, the tag,
or the tag as the first item.
-/

namespace DeckLegality.Json

open Text (maxCount maxSize)

/-- The text of a string. -/
def text? : Json → Option String
  | string s => s
  | _ => none

/-- A whole number that is at most `limit`. -/
def natUpTo? (limit : Nat) : Json → Option Nat
  | number n => n.nat?.filter (· ≤ limit)
  | _ => none

/-- A copy count or copy limit. -/
def count? : Json → Option Nat := natUpTo? maxCount

/-- A deck size or another large number. -/
def size? : Json → Option Nat := natUpTo? maxSize

/-- What `item` makes of the items of an array. -/
def list? {α : Type} (item : Json → Option α) : Json → Option (List α)
  | array items => items.mapM item
  | _ => none

/-- What `first` and `second` make of the items of an array of two. -/
def pair? {α β : Type} (first : Json → Option α) (second : Json → Option β) : Json → Option (α × β)
  | array [a, b] => return (← first a, ← second b)
  | _ => none

/-- What `value` makes of the members of an object, with their keys. -/
def members? {α : Type} (value : Json → Option α) : Json → Option (List (String × α))
  | object members => members.mapM fun (key, j) => return (← key, ← value j)
  | _ => none

/-- What `value` makes of a value that may be null. -/
def nullable? {α : Type} (value : Json → Option α) : Json → Option (Option α)
  | null => some none
  | j => (value j).map some

/-- The members of an object with the given key. -/
def membersAt (key : String) (members : List (Option String × Json)) : List Json :=
  (members.filter (·.1 = some key)).map (·.2)

/-- The fields of a record with the given keys, where a missing one is `none`. -/
def fields? (keys : List String) : Json → Option (List (Option Json))
  | object members =>
    if members.all (·.1.isSome) ∧ keys.all (fun key => (membersAt key members).length ≤ 1) then
      some (keys.map fun key => (membersAt key members).head?)
    else none
  | array items =>
    if items.length ≤ keys.length then
      some (items.map some ++ List.replicate (keys.length - items.length) none)
    else none
  | _ => none

/-- The fields of a record with the given keys, none of which may be missing. -/
def allFields? (keys : List String) (j : Json) : Option (List Json) := do
  (← fields? keys j).mapM id

/-- The tag of a tagged record and the record without its tag. -/
def tagged? (key : String) : Json → Option (Json × Json)
  | object members =>
    match membersAt key members with
    | [tag] => some (tag, object (members.filter (·.1 ≠ some key)))
    | _ => none
  | array (tag :: rest) => some (tag, array rest)
  | _ => none

end DeckLegality.Json
