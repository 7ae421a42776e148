import DeckLegality.Sorted.Set
import DeckLegality.Text.Blank

/-!
# Cards and the sets they are printed in

A card is known by its name and a set by its code.  Both are plain text, compared letter for letter and ordered
by code points.  A name that somebody typed is trimmed when it becomes a `CardName` (`CardName.ofText`); a set
code is taken as it stands.
-/

namespace DeckLegality

/-- The name of a card. -/
structure CardName where
  text : String
  deriving DecidableEq, Repr, Inhabited

/-- The code of a set that cards are printed in. -/
structure SetCode where
  text : String
  deriving DecidableEq, Repr, Inhabited

namespace CardName

/-- The name that somebody typed, without the blanks at its ends. -/
def ofText (s : String) : CardName := ⟨Text.trimmed s⟩

/-- A name as typing it would leave it: no blank at either end. -/
def IsTrimmed (n : CardName) : Prop := Text.trimmed n.text = n.text

instance (n : CardName) : Decidable n.IsTrimmed := inferInstanceAs (Decidable (_ = _))

instance : LE CardName := ⟨fun a b => a.text ≤ b.text⟩

instance : LT CardName := ⟨fun a b => a.text < b.text⟩

instance : DecidableLT CardName := fun a b => inferInstanceAs (Decidable (a.text < b.text))

instance : Std.IsLinearOrder CardName :=
  .of_le
    ⟨fun a b h h' => by cases a; cases b; exact congrArg mk (String.le_antisymm h h')⟩
    ⟨fun h h' => String.le_trans h h'⟩
    ⟨fun a b => String.le_total a.text b.text⟩

instance : Std.LawfulOrderLT CardName := .of_le fun a b => Std.LawfulOrderLT.lt_iff a.text b.text

end CardName

namespace SetCode

instance : LE SetCode := ⟨fun a b => a.text ≤ b.text⟩

instance : LT SetCode := ⟨fun a b => a.text < b.text⟩

instance : DecidableLT SetCode := fun a b => inferInstanceAs (Decidable (a.text < b.text))

instance : Std.IsLinearOrder SetCode :=
  .of_le
    ⟨fun a b h h' => by cases a; cases b; exact congrArg mk (String.le_antisymm h h')⟩
    ⟨fun h h' => String.le_trans h h'⟩
    ⟨fun a b => String.le_total a.text b.text⟩

instance : Std.LawfulOrderLT SetCode := .of_le fun a b => Std.LawfulOrderLT.lt_iff a.text b.text

end SetCode

/-- A collection of set codes. -/
abbrev SetCodes := SortedSet SetCode

end DeckLegality
