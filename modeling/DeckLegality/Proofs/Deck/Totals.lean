import DeckLegality.Proofs.Deck.Merging
import Mathlib.Algebra.Order.BigOperators.Group.List
import Mathlib.Algebra.Group.Action.Defs
import Mathlib.Algebra.Order.Ring.Nat

/-!
# How many cards there are

The total of a decklist adds up counts that have each stopped at the largest count, so it may be far below the
number of copies that were put in.  It never falls below the largest count on that account, though: a count that
has stopped is that large by itself.  So total and number of copies agree as far as the largest count can tell,
which is what `min_total_ofList` says.

* `total_add`: what adding copies of one card does to the total.
* `min_total_addAll`, `min_total_ofList`: the total against the number of copies that were added.
* `total_eq_sum`: the total as the sum of the counts.
* `total_lt_two_pow`: the total of a decklist with at most `2 ^ 32` cards fits into 64 bits.
-/

namespace DeckLegality

open Text (maxCount)

/-- The copies of all cards together in a list of entries. -/
def copies (l : List (CardName × ℕ)) : ℕ := (l.map (·.2)).sum

/-- The sum of the values changes by as much as the value at the key. -/
theorem FirstSeen.sum_upsert (n : CardName) (v : ℕ) (f : ℕ → ℕ) (l : List (CardName × ℕ)) :
    ((upsert n v f l).map (·.2)).sum + (lookup n l).getD 0 =
      (l.map (·.2)).sum + ((lookup n l).map f).getD v := by
  induction l with
  | nil =>
    show v + 0 + 0 = 0 + v
    omega
  | cons e l ih =>
    rw [upsert, lookup_cons]
    by_cases he : e.1 = n
    · rw [if_pos he, if_pos he, List.map_cons, List.sum_cons, List.map_cons, List.sum_cons, Option.map_some,
        Option.getD_some, Option.getD_some]
      show f e.2 + _ + e.2 = e.2 + _ + f e.2
      omega
    · rw [if_neg he, if_neg he, List.map_cons, List.sum_cons, List.map_cons, List.sum_cons]
      omega

namespace Decklist

/-! ## One addition -/

theorem total_add (d : Decklist) (n : CardName) (k : ℕ) :
    (d.add n k).total + d.count n = d.total + addCopies (d.count n) k := by
  rcases Nat.eq_zero_or_pos k with rfl | hk
  · rw [add_zero, addCopies_zero (d.count_le n)]
  · have hsum := FirstSeen.sum_upsert n (min k maxCount) (addCopies · k) d.entries
    have hnew : ((FirstSeen.lookup n d.entries).map (addCopies · k)).getD (min k maxCount) =
        addCopies (d.count n) k := by
      rw [count_eq_lookup]
      cases FirstSeen.lookup n d.entries with
      | none => rw [Option.map_none, Option.getD_none, Option.getD_none, addCopies, Nat.zero_add]
      | some c => rfl
    rwa [hnew, ← entries_add d n hk, ← count_eq_lookup] at hsum

theorem count_le_total (d : Decklist) (n : CardName) : d.count n ≤ d.total := by
  rw [count_eq_lookup]
  cases h : FirstSeen.lookup n d.entries with
  | none => exact Nat.zero_le _
  | some c => exact List.le_sum_of_mem (List.mem_map_of_mem (f := (·.2)) (FirstSeen.mem_of_lookup_eq_some h))

/-- A count that stops leaves the total at least as large as the largest count. -/
theorem min_total_add (d : Decklist) (n : CardName) (k : ℕ) :
    min (d.add n k).total maxCount = min (d.total + k) maxCount := by
  have hadd := d.total_add n k
  have hle := d.count_le_total n
  unfold addCopies at hadd
  omega

/-! ## Many additions -/

/-- As far as the largest count can tell, the total after some additions is the total before and what was added. -/
theorem min_total_addAll (d : Decklist) (l : List (CardName × ℕ)) :
    min (d.addAll l).total maxCount = min (d.total + copies l) maxCount := by
  induction l generalizing d with
  | nil => rfl
  | cons e l ih =>
    have hadd := d.min_total_add e.1 e.2
    have hcopies : copies (e :: l) = e.2 + copies l := List.sum_cons
    show min ((d.add e.1 e.2).addAll l).total maxCount = _
    rw [ih, hcopies]
    omega

theorem min_total_ofList (l : List (CardName × ℕ)) :
    min (ofList l).total maxCount = min (copies l) maxCount := by
  have htotal : empty.total = 0 := rfl
  rw [ofList, min_total_addAll, htotal, Nat.zero_add]

/-! ## Sums of counts -/

/-- The total adds up the counts of the cards that are listed. -/
theorem total_eq_sum (d : Decklist) : d.total = (d.names.map d.count).sum := by
  show (d.entries.map (·.2)).sum = _
  rw [entries_eq_map, List.map_map]
  rfl

/-! ## The largest total -/

theorem total_le (d : Decklist) : d.total ≤ d.size * maxCount := by
  have hsum := List.sum_le_card_nsmul (d.entries.map (·.2)) maxCount (by
    rw [List.forall_mem_map]
    exact fun e he => (d.counts e he).2)
  rwa [List.length_map, smul_eq_mul] at hsum

/-- The total of at most `2 ^ 32` cards fits into 64 bits. -/
theorem total_lt_two_pow {d : Decklist} (h : d.size ≤ 2 ^ 32) : d.total < 2 ^ 64 :=
  calc d.total ≤ d.size * maxCount := d.total_le
    _ ≤ 2 ^ 32 * maxCount := Nat.mul_le_mul_right _ h
    _ < 2 ^ 64 := by decide

end Decklist

end DeckLegality
