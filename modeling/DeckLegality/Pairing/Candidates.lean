import DeckLegality.Card
import DeckLegality.FirstSeen.Table
import DeckLegality.Sorted.Map

/-!
# Candidate sets and pairings

In the one-card-per-set variant every card is paired with a set that it was printed in, and no set serves two
cards.  `Candidates` holds the sets that each card may be paired with, `Pairing` the sets that are chosen.

Candidates are kept as decklists are, in the order in which the cards came in and with the position of each card
(`FirstSeen.Table`); `get?_eq_lookup` and `entries_insert` leave the positions behind.
-/

namespace DeckLegality

/-- The sets that each card may be paired with; the cards are in the order in which they came in, and each one has its
position. -/
structure Candidates extends FirstSeen.Table CardName SetCodes

namespace Candidates

instance : Inhabited Candidates := ⟨⟨.empty⟩⟩

/-- No cards at all. -/
def empty : Candidates := default

/-- The cards, in the order in which they came in. -/
def names (c : Candidates) : List CardName := c.entries.map (·.1)

/-- The number of cards. -/
def size (c : Candidates) : Nat := c.entries.length

/-- Whether there is no card. -/
def isEmpty (c : Candidates) : Bool := c.entries.isEmpty

/-- The sets that the card `n` may be paired with. -/
def get? (c : Candidates) (n : CardName) : Option SetCodes := c.toTable.get? n

/-- The candidates with more sets for the card `n`. -/
def insert (c : Candidates) (n : CardName) (codes : SetCodes) : Candidates := ⟨c.upsert n codes (·.union codes)⟩

/-- The candidates of a list of entries, which may name a card more than once. -/
def ofList (l : List (CardName × SetCodes)) : Candidates := l.foldl (fun c e => c.insert e.1 e.2) empty

/-- Every set that some card may be paired with. -/
def codes (c : Candidates) : SetCodes := .ofList (c.entries.flatMap (·.2.toList))

/-- Candidates are known by their entries. -/
theorem ext_entries {c d : Candidates} (h : c.entries = d.entries) : c = d :=
  congrArg mk (FirstSeen.Table.ext_entries h)

instance : DecidableEq Candidates := fun c d =>
  decidable_of_iff (c.entries = d.entries) ⟨ext_entries, fun h => h ▸ rfl⟩

theorem get?_eq_lookup (c : Candidates) (n : CardName) : c.get? n = FirstSeen.lookup n c.entries :=
  FirstSeen.Table.get?_eq_lookup ..

theorem entries_insert (c : Candidates) (n : CardName) (codes : SetCodes) :
    (c.insert n codes).entries = FirstSeen.upsert n codes (·.union codes) c.entries :=
  FirstSeen.Table.entries_upsert ..

theorem get?_insert (c : Candidates) (n : CardName) (codes : SetCodes) (m : CardName) :
    (c.insert n codes).get? m =
      if m = n then some (((c.get? n).map (·.union codes)).getD codes) else c.get? m := by
  rw [get?_eq_lookup, get?_eq_lookup, get?_eq_lookup, entries_insert, FirstSeen.lookup_upsert]

end Candidates

/-- A set for each of some cards. -/
abbrev Pairing := SortedMap CardName SetCode

namespace Pairing

/-- Whether the pairing gives each of some cards one of its candidates, and never one that is used already. -/
def serves (p : Pairing) (used : SetCodes) : List (CardName × SetCodes) → Bool
  | [] => true
  | (n, codes) :: r =>
    match p.get? n with
    | some code => codes.contains code && !used.contains code && serves p (used.insert code) r
    | none => false

/-- Whether the pairing gives every card a set of its own among its candidates, and has no other card. -/
def satisfies (p : Pairing) (c : Candidates) : Bool := p.size = c.size && p.serves ∅ c.entries

end Pairing

end DeckLegality
