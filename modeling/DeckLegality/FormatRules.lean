import DeckLegality.Card

/-!
# The rules of a format

A format limits the copies of a card, the size of the main deck and the size of the sideboard.  Some cards are
exempt from the copy limit: the basic lands, and the cards whose own text says so.
-/

namespace DeckLegality

/-- The cards that the copy limit does not apply to. -/
abbrev Exemptions := SortedSet CardName

/-- The cards that are exempt unless a format says otherwise. -/
def Exemptions.standard : Exemptions :=
  .ofList [⟨"Relentless Rats"⟩, ⟨"Rat Colony"⟩, ⟨"Persistent Petitioners"⟩, ⟨"Shadowborn Apostle"⟩,
    ⟨"Plains"⟩, ⟨"Island"⟩, ⟨"Swamp"⟩, ⟨"Mountain"⟩, ⟨"Forest"⟩]

/-- What a format asks of a deck. -/
structure FormatRules where
  /-- The most copies of a card in main deck and sideboard together. -/
  maxCards : Nat := 4
  minDeckSize : Nat := 60
  /-- The most cards in the main deck, if there is a limit. -/
  maxDeckSize : Option Nat := none
  minSideboardSize : Nat := 0
  maxSideboardSize : Nat := 15
  exemptions : Exemptions := .standard
  deriving DecidableEq

namespace FormatRules

instance : Inhabited FormatRules := ⟨{}⟩

/-- The rules of a format with one copy of each card and main decks of one size. -/
def singleton (size : Nat) : FormatRules :=
  { maxCards := 1, minDeckSize := size, maxDeckSize := some size }

end FormatRules

end DeckLegality
