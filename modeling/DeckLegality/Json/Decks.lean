import DeckLegality.Decklist
import DeckLegality.FormatRules
import DeckLegality.Json.Access
import DeckLegality.Pairing.Search
import DeckLegality.Printings

/-!
# Stored values

How the values of this library are stored as JSON.  Names and codes are strings and are taken as they are; nothing
is trimmed.  Collections that keep an order are arrays, and reading one puts its items together in turn, so that a
repeated name adds to what is there.  Collections without an order are written in ascending order; reading accepts
any.
-/

namespace DeckLegality

open Json (nat record)

namespace CardName

/-- The name of a card as JSON. -/
def toJson (n : CardName) : Json := Json.text n.text

/-- Reads a stored name of a card, which is not trimmed. -/
def ofJson? (j : Json) : Option CardName := j.text?.map (⟨·⟩)

end CardName

namespace SetCode

/-- The code of a set as JSON. -/
def toJson (c : SetCode) : Json := Json.text c.text

/-- Reads a stored code of a set. -/
def ofJson? (j : Json) : Option SetCode := j.text?.map (⟨·⟩)

end SetCode

namespace SetCodes

/-- The set codes, in ascending order, as JSON. -/
def toJson (s : SetCodes) : Json := .array (s.toList.map (·.toJson))

/-- Reads stored set codes, in whatever order and however often they are named. -/
def ofJson? (j : Json) : Option SetCodes := (j.list? SetCode.ofJson?).map .ofList

end SetCodes

namespace Exemptions

/-- The exempt cards, in ascending order, as JSON. -/
def toJson (e : Exemptions) : Json := .array (e.toList.map (·.toJson))

/-- Reads stored exempt cards. -/
def ofJson? (j : Json) : Option Exemptions := (j.list? CardName.ofJson?).map .ofList

end Exemptions

namespace Decklist

/-- The entries of a decklist, in order, as JSON. -/
def toJson (d : Decklist) : Json := .array (d.entries.map fun (n, k) => .array [n.toJson, nat k])

/-- Reads a stored decklist by adding its entries in turn. -/
def ofJson? (j : Json) : Option Decklist := (j.list? (Json.pair? CardName.ofJson? Json.count?)).map .ofList

end Decklist

namespace Submission

/-- The main deck and sideboard as JSON. -/
def toJson (s : Submission) : Json :=
  record [("maindeck", s.maindeck.toJson), ("sideboard", s.sideboard.toJson)]

/-- Reads a stored submission. -/
def ofJson? (j : Json) : Option Submission := do
  let [maindeck, sideboard] ← j.allFields? ["maindeck", "sideboard"] | none
  return ⟨← Decklist.ofJson? maindeck, ← Decklist.ofJson? sideboard⟩

end Submission

namespace FormatRules

/-- The rules of a format as JSON. -/
def toJson (r : FormatRules) : Json :=
  record [("max_cards", nat r.maxCards), ("min_deck_size", nat r.minDeckSize),
    ("max_deck_size", match r.maxDeckSize with | some max => nat max | none => .null),
    ("min_sideboard_size", nat r.minSideboardSize), ("max_sideboard_size", nat r.maxSideboardSize),
    ("exemptions", r.exemptions.toJson)]

/-- The keys of stored rules, in the order of their fields. -/
def keys : List String :=
  ["max_cards", "min_deck_size", "max_deck_size", "min_sideboard_size", "max_sideboard_size", "exemptions"]

/-- What `read` makes of a stored field, or the default of a missing one. -/
def field {α : Type} (read : Json → Option α) (default : α) : Option Json → Option α
  | some j => read j
  | none => some default

/-- Reads stored rules; a field that is missing keeps its default. -/
def ofJson? (j : Json) : Option FormatRules := do
  let [maxCards, minDeck, maxDeck, minSide, maxSide, exemptions] ← j.fields? keys | none
  let rules : FormatRules := {}
  return {
    maxCards := ← field Json.count? rules.maxCards maxCards
    minDeckSize := ← field Json.size? rules.minDeckSize minDeck
    maxDeckSize := ← field (Json.nullable? Json.size?) rules.maxDeckSize maxDeck
    minSideboardSize := ← field Json.size? rules.minSideboardSize minSide
    maxSideboardSize := ← field Json.size? rules.maxSideboardSize maxSide
    exemptions := ← field Exemptions.ofJson? rules.exemptions exemptions }

end FormatRules

namespace Candidates

/-- The entries of candidates, in order, as JSON. -/
def toJson (c : Candidates) : Json :=
  .array (c.entries.map fun (n, codes) => .array [n.toJson, SetCodes.toJson codes])

/-- Reads stored candidates by putting in their entries in turn. -/
def ofJson? (j : Json) : Option Candidates := (j.list? (Json.pair? CardName.ofJson? SetCodes.ofJson?)).map .ofList

end Candidates

namespace Pairing

/-- The pairs of a pairing, by ascending card, as JSON. -/
def toJson (p : Pairing) : Json := record (p.toList.map fun (n, code) => (n.text, code.toJson))

/-- Reads a stored pairing; of several members with one key the last one counts. -/
def ofJson? (j : Json) : Option Pairing :=
  (j.members? SetCode.ofJson?).map fun l => .ofList (l.map fun (name, code) => (⟨name⟩, code))

end Pairing

namespace SearchStats

/-- The counters of a search as JSON. -/
def toJson (s : SearchStats) : Json :=
  record [("nodes_visited", nat s.nodesVisited), ("backtracks", nat s.backtracks),
    ("memo_hits", nat s.memoHits), ("time_us", nat s.timeMicros)]

/-- Reads stored counters. -/
def ofJson? (j : Json) : Option SearchStats := do
  let [nodes, backtracks, hits, time] ← j.allFields? ["nodes_visited", "backtracks", "memo_hits", "time_us"] | none
  return ⟨← nodes.size?, ← backtracks.size?, ← hits.size?, ← time.size?⟩

end SearchStats

namespace SearchReport

/-- The answer of a search as JSON. -/
def toJson (r : SearchReport) : Json :=
  record [("assignment", match r.pairing with | some p => Pairing.toJson p | none => .null),
    ("stats", r.stats.toJson)]

/-- Reads a stored report.  An object may leave out the pairing if there is none; an array has both fields. -/
def ofJson? (j : Json) : Option SearchReport := do
  let [pairing, some stats] ← j.fields? ["assignment", "stats"] | none
  return ⟨← (pairing.getD .null).nullable? Pairing.ofJson?, ← SearchStats.ofJson? stats⟩

end SearchReport

namespace CardPrintings

/-- The printings of cards, by ascending card, as JSON. -/
def toJson (p : CardPrintings) : Json :=
  record (p.toList.map fun (n, codes) => (n.text, SetCodes.toJson codes))

/-- Reads stored printings; of several members with one key the last one counts. -/
def ofJson? (j : Json) : Option CardPrintings :=
  (j.members? SetCodes.ofJson?).map fun l => .ofList (l.map fun (name, codes) => (⟨name⟩, codes))

end CardPrintings

end DeckLegality
