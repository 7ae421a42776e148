import DeckLegality.BitSet
import DeckLegality.Pairing.Candidates
import Std.Data.HashSet

/-!
# The search for a pairing

Cards and sets are numbered, and the search places one card after the other.  It always takes the card that has
the fewest sets left, the earliest one if several have equally few, and tries these sets in ascending order.  When
none of them leads to a pairing, the state in which the card was taken is dead.  With memoisation dead states are
kept and never searched again; a state is known by the cards placed and the sets used, however it was reached.

`Search.place` carries a `Search.State` along.  On failure it gives back the cards and sets it took, so that only
the dead states and the counters have changed.
-/

namespace DeckLegality

/-- What a search counts. -/
structure SearchStats where
  /-- The states with a card left to place that the search entered. -/
  nodesVisited : Nat := 0
  /-- The choices that led to no pairing. -/
  backtracks : Nat := 0
  /-- The states that were known to be dead. -/
  memoHits : Nat := 0
  /-- The time it took, in microseconds. -/
  timeMicros : Nat := 0
  deriving DecidableEq, Repr, Inhabited

namespace SearchStats

/-- The states entered in a second; none if no time went by. -/
def nodesPerSecond (s : SearchStats) : Float :=
  if s.timeMicros = 0 then 0.0
  else s.nodesVisited.toUInt64.toFloat / (s.timeMicros.toUInt64.toFloat / 1000000.0)

end SearchStats

namespace Search

/-- Where a search stands. -/
structure State where
  /-- The cards that have a set. -/
  placed : BitSet
  /-- The sets that a card has. -/
  used : BitSet
  /-- The set of each card; it counts only for cards that are placed. -/
  chosen : List Nat
  /-- The states, as cards placed and sets used, that are known to be dead. -/
  failed : Std.HashSet (BitSet × BitSet) := ∅
  stats : SearchStats := {}

namespace State

/-- Another state is entered. -/
def visit (st : State) : State :=
  { st with stats := { st.stats with nodesVisited := st.stats.nodesVisited + 1 } }

/-- The state was known to be dead. -/
def hit (st : State) : State :=
  { st with stats := { st.stats with memoHits := st.stats.memoHits + 1 } }

/-- The card is taken. -/
def take (st : State) (card : Nat) : State := { st with placed := st.placed.insert card }

/-- The set is chosen for the card. -/
def choose (st : State) (card set : Nat) : State :=
  { st with used := st.used.insert set, chosen := st.chosen.set card set }

/-- The choice of the set led to no pairing. -/
def takeBack (st : State) (set : Nat) : State :=
  { st with
    used := st.used.erase set
    stats := { st.stats with backtracks := st.stats.backtracks + 1 } }

/-- No choice for the card led to a pairing. -/
def giveUp (st : State) (memoize : Bool) (card : Nat) : State :=
  let placed := st.placed.erase card
  { st with
    placed
    failed := if memoize then st.failed.insert (placed, st.used) else st.failed }

end State

/-- The best card found so far in a scan over the cards: its number, the sets left for it and how many they are. -/
structure Best where
  card : Nat
  available : BitSet
  fewest : Nat

/-- Goes on with a scan at the card `card`.  A card without sets ends it, since no later one can have fewer. -/
def scan (placed used : BitSet) (card : Nat) (best : Option Best) : List BitSet → Option Best
  | [] => best
  | options :: rest =>
    if placed.contains card then scan placed used (card + 1) best rest
    else
      let available := options.difference used
      let count := available.count
      if best.all fun b => count < b.fewest then
        if count = 0 then some ⟨card, available, count⟩
        else scan placed used (card + 1) (some ⟨card, available, count⟩) rest
      else scan placed used (card + 1) best rest

/-- The first card with the fewest sets left among the cards that are not placed, and these sets. -/
def mostConstrained (options : List BitSet) (placed used : BitSet) : Option (Nat × BitSet) :=
  (scan placed used 0 none options).map fun b => (b.card, b.available)

/-- Tries some sets for a card in turn, where `next` places the remaining cards. -/
def tryEach (next : State → Bool × State) (card : Nat) : List Nat → State → Bool × State
  | [], st => (false, st)
  | set :: sets, st =>
    match next (st.choose card set) with
    | (true, st') => (true, st')
    | (false, st') => tryEach next card sets (st'.takeBack set)

/-- Places the remaining cards, where each card may have the sets that `options` has at its number, and tells
whether that worked. -/
def place (memoize : Bool) (options : List BitSet) : (remaining : Nat) → State → Bool × State
  | 0, st => (true, st)
  | remaining + 1, st =>
    let st := st.visit
    if memoize && st.failed.contains (st.placed, st.used) then (false, st.hit)
    else match mostConstrained options st.placed st.used with
      | none => (false, st)
      | some (card, available) =>
        match tryEach (place memoize options remaining) card available.toList (st.take card) with
        | (true, st') => (true, st')
        | (false, st') => (false, st'.giveUp memoize card)

end Search

/-- The answer of a search, with its counters. -/
structure SearchReport where
  pairing : Option Pairing
  stats : SearchStats
  deriving DecidableEq, Inhabited

namespace Candidates

/-- The sets of one card by their numbers in the list `codes`. -/
def mask (codes : List SetCode) (candidates : SetCodes) : BitSet :=
  candidates.toList.foldl (fun s code => s.insert (codes.idxOf code)) (.withWidth codes.length)

/-- The sets of each card by their numbers. -/
def options (c : Candidates) : List BitSet :=
  let codes := c.codes.toList
  c.entries.map fun e => mask codes e.2

/-- The state in which no card is placed. -/
def start (c : Candidates) : Search.State where
  placed := .withWidth c.size
  used := .withWidth c.codes.size
  chosen := List.replicate c.size 0

/-- The pairing of the cards with the sets of the given numbers. -/
def pairingOf (c : Candidates) (chosen : List Nat) : Pairing :=
  let codes := c.codes.toList
  .ofList ((c.names.zip chosen).filterMap fun (n, set) => codes[set]?.map (n, ·))

/-- Searches for a pairing; there is no search if there are fewer sets than cards. -/
def solve (c : Candidates) (memoize : Bool) : SearchReport :=
  if c.codes.size < c.size then ⟨none, {}⟩
  else match Search.place memoize c.options c.size c.start with
    | (true, st) => ⟨some (c.pairingOf st.chosen), st.stats⟩
    | (false, st) => ⟨none, st.stats⟩

/-- A pairing of every card with a set of its own, if there is one. -/
def pairing? (c : Candidates) : Option Pairing := (c.solve true).pairing

end Candidates

end DeckLegality
