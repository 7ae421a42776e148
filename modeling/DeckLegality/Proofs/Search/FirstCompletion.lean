import DeckLegality.Proofs.Search.Selection

/-!
# The completion that a search finds

`firstCompletion` is the search without its bookkeeping: no counters, no list of dead states, nothing to take back.
It makes the same choices in the same order, so it is the measure for what `place` returns, with and without
memoisation.

The two directions are both inductions on the number of cards that are left.  `completes_firstCompletion` says that
what is found is a completion, and `firstCompletion_eq_none_iff` that nothing is found exactly in a dead state.
-/

namespace DeckLegality

namespace Search

/-- The first completion in the order in which the search tries the sets of the card that comes next. -/
def firstCompletion (options : List BitSet) : (remaining : ℕ) → (placed used : BitSet) → Option (ℕ → ℕ)
  | 0, _, _ => some fun _ => 0
  | remaining + 1, placed, used =>
    match mostConstrained options placed used with
    | none => none
    | some (card, available) =>
      available.toList.findSome? fun set =>
        (firstCompletion options remaining (placed.insert card) (used.insert set)).map
          fun f => Function.update f card set

variable {options : List BitSet} {remaining : ℕ} {placed used : BitSet}

/-- With a card left to place, some card comes next. -/
theorem exists_mostConstrained (used : BitSet) (hremaining : remaining + 1 = (unplaced options placed).card) :
    ∃ card, mostConstrained options placed used = some (card, left options used card) ∧
      card ∈ unplaced options placed := by
  cases hnext : mostConstrained options placed used with
  | none =>
    rw [mostConstrained_eq_none_iff.mp hnext, Finset.card_empty] at hremaining
    exact absurd hremaining (Nat.succ_ne_zero remaining)
  | some next =>
    obtain ⟨card, available⟩ := next
    obtain ⟨hcard, rfl⟩ := mostConstrained_eq_some_iff.mp hnext
    exact ⟨card, rfl, hcard.mem⟩

theorem firstCompletion_succ {card : ℕ}
    (hnext : mostConstrained options placed used = some (card, left options used card)) :
    firstCompletion options (remaining + 1) placed used =
      (left options used card).toList.findSome? fun set =>
        (firstCompletion options remaining (placed.insert card) (used.insert set)).map
          fun f => Function.update f card set := by
  rw [firstCompletion, hnext]

/-- What the search finds is a completion. -/
theorem completes_firstCompletion (hroom : HasRoom options placed used)
    (hremaining : remaining = (unplaced options placed).card) {f : ℕ → ℕ}
    (hf : firstCompletion options remaining placed used = some f) : Completes options placed used f := by
  induction remaining generalizing placed used f with
  | zero => exact completes_of_unplaced_eq_empty (Finset.card_eq_zero.mp hremaining.symm) f
  | succ remaining ih =>
    obtain ⟨card, hnext, hcard⟩ := exists_mostConstrained used hremaining
    rw [firstCompletion_succ hnext] at hf
    obtain ⟨set, hset, hbelow⟩ := List.exists_of_findSome?_eq_some hf
    obtain ⟨g, hg, rfl⟩ := Option.map_eq_some_iff.mp hbelow
    have hcount := card_unplaced_insert hroom hcard
    refine (completes_update_iff hroom hcard g).mpr ⟨BitSet.mem_toList.mp hset, ?_⟩
    exact ih ((hroom.insert_card card).insert_set set) (by omega) hg

/-- **The search finds nothing exactly where nothing is to be found.** -/
theorem firstCompletion_eq_none_iff (hroom : HasRoom options placed used)
    (hremaining : remaining = (unplaced options placed).card) :
    firstCompletion options remaining placed used = none ↔ Dead options placed used := by
  constructor
  · intro hnone
    induction remaining generalizing placed used with
    | zero => exact absurd hnone (Option.some_ne_none _)
    | succ remaining ih =>
      obtain ⟨card, hnext, hcard⟩ := exists_mostConstrained used hremaining
      have hcount := card_unplaced_insert hroom hcard
      rw [firstCompletion_succ hnext, List.findSome?_eq_none_iff] at hnone
      refine (dead_iff_forall hroom hcard).mpr fun set hset => ?_
      have hbelow := Option.map_eq_none_iff.mp (hnone set (BitSet.mem_toList.mpr hset))
      exact ih ((hroom.insert_card card).insert_set set) (by omega) hbelow
  · intro hdead
    cases hf : firstCompletion options remaining placed used with
    | none => rfl
    | some f => exact absurd (completes_firstCompletion hroom hremaining hf) (hdead f)

end Search

end DeckLegality
