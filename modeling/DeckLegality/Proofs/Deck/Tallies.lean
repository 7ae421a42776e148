import DeckLegality.Proofs.Deck.Merging
import DeckLegality.Proofs.Deck.Totals

/-!
# Tallies

A decklist adds copies one after the other, and each sum stops by itself at the largest count.  `Decklist.Tallies` says
what must come out of this in the end: the sum of all additions of a card, stopped once; the cards in the order of their
first copies; and an index that has the cards at the positions which this order gives them, and nothing else.

* `Decklist.tallies_ofList`: this is what comes out.
* `Decklist.tallies_iff`: nothing else has these properties.
-/

namespace DeckLegality

open Text (maxCount)

namespace Decklist

variable {d : Decklist} {l : List (CardName × ℕ)}

/-- The decklist is the tally of a list of additions.  Of every card it has as many copies as were added together,
unless that is more than a count can be; it contains the cards of which any copy was added, each listed once, where it
had its first copy, and the index has each of them at its position in this order and no other cards and positions; and
its size and its total are those of what is listed. -/
structure Tallies (d : Decklist) (l : List (CardName × ℕ)) : Prop where
  count (n : CardName) : d.count n = min (copiesIn n l) maxCount
  contains (n : CardName) : d.contains n = true ↔ 0 < copiesIn n l
  nodup : d.names.Nodup
  names : d.names = cardsIn l
  index (n : CardName) (pos : ℕ) : d.index n = some pos ↔ (cardsIn l)[pos]? = some n
  entries : ∀ e ∈ d.entries, e.2 = d.count e.1 ∧ 1 ≤ e.2 ∧ e.2 ≤ maxCount
  size : d.size = d.names.length
  total : d.total = ((cardsIn l).map fun n => min (copiesIn n l) maxCount).sum
  total_lt : d.size ≤ 2 ^ 32 → d.total < 2 ^ 64

theorem contains_iff {n : CardName} : d.contains n = true ↔ n ∈ d.names := FirstSeen.Table.contains_iff

theorem tallies_ofList (l : List (CardName × ℕ)) : (ofList l).Tallies l where
  count := count_ofList l
  contains n := by rw [contains_iff, names_ofList, mem_cardsIn]
  nodup := (ofList l).nodup_names
  names := names_ofList l
  index n pos := by
    rw [← names_ofList]
    exact (ofList l).aligned n pos
  entries e he := ⟨(count_of_mem he).symm, (ofList l).counts e he⟩
  size := (List.length_map _).symm
  total := by
    rw [total_eq_sum, names_ofList]
    exact congrArg List.sum (List.map_congr_left fun n _ => count_ofList l n)
  total_lt := total_lt_two_pow

/-- A list of additions has one tally. -/
theorem tallies_iff : d.Tallies l ↔ ofList l = d := by
  constructor
  · intro h
    refine ext_names_count ?_ fun n => ?_
    · rw [names_ofList, h.names]
    · rw [count_ofList, h.count]
  · rintro rfl
    exact tallies_ofList l

end Decklist

end DeckLegality
