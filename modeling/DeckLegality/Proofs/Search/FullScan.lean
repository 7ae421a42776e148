import DeckLegality.Proofs.BitSet.Histories
import DeckLegality.Proofs.Search.Selection

/-!
# The choice of the next card, from the masks alone

`mostConstrained` scans the cards with a running best and stops at a card that has no set left.  Two things are said about
it here that do not mention the scan.

Stopping is no more than a short cut: `scanAll` goes through all cards, and since no later card can have fewer sets than
none, both find the same (`scan_eq_scanAll`).

What is found is told by the masks and by how many of their members are not used.  `freeSets` is that set of numbers, so
that neither words nor bits are counted in `IsEarliestFewest`.
-/

namespace DeckLegality

namespace Search

/-! ## Without stopping -/

/-- Goes on with a scan at the card `card`, and looks at every card that is left. -/
def scanAll (placed used : BitSet) (card : ℕ) (best : Option Best) : List BitSet → Option Best
  | [] => best
  | options :: rest =>
    if placed.contains card then scanAll placed used (card + 1) best rest
    else
      let available := options.difference used
      let count := available.count
      if best.all fun b => count < b.fewest then
        scanAll placed used (card + 1) (some ⟨card, available, count⟩) rest
      else scanAll placed used (card + 1) best rest

variable {placed used : BitSet}

/-- A card that has no set left stays the best one. -/
theorem scanAll_of_fewest_eq_zero {best : Best} (hzero : best.fewest = 0) (card : ℕ) (rest : List BitSet) :
    scanAll placed used card (some best) rest = some best := by
  induction rest generalizing card with
  | nil => rfl
  | cons options rest ih =>
    have hnot : ¬ ((some best).all fun b => (options.difference used).count < b.fewest) = true := by
      rw [Option.all_some, hzero, decide_eq_true_eq]
      exact Nat.not_lt_zero _
    rw [scanAll]
    dsimp only
    rw [if_neg hnot, ih, ite_self]

/-- **Stopping at a card that has no set left does not change what a scan finds.** -/
theorem scan_eq_scanAll (placed used : BitSet) (card : ℕ) (best : Option Best) (rest : List BitSet) :
    scan placed used card best rest = scanAll placed used card best rest := by
  induction rest generalizing card best with
  | nil => rfl
  | cons options rest ih =>
    rw [scan, scanAll]
    dsimp only
    split
    · exact ih ..
    · split
      · split
        · next hzero => exact (scanAll_of_fewest_eq_zero hzero ..).symm
        · exact ih ..
      · exact ih ..

/-! ## From the masks -/

/-- The sets in a mask that are not used. -/
def freeSets (mask used : BitSet) : Finset ℕ :=
  {set ∈ Finset.range mask.capacity | mask.contains set = true ∧ used.contains set = false}

/-- The card `card` has the mask `mask` and is not placed; no card that is not placed has fewer sets free, and none that
comes earlier as few. -/
structure IsEarliestFewest (options : List BitSet) (placed used : BitSet) (card : ℕ) (mask : BitSet) : Prop where
  getElem? : options[card]? = some mask
  not_placed : placed.contains card = false
  card_le : ∀ other mask', options[other]? = some mask' → placed.contains other = false →
    (freeSets mask used).card ≤ (freeSets mask' used).card
  card_lt : ∀ other < card, ∀ mask', options[other]? = some mask' → placed.contains other = false →
    (freeSets mask used).card < (freeSets mask' used).card

variable {options : List BitSet} {card : ℕ} {mask : BitSet}

theorem denotes_difference (mask used : BitSet) : (mask.difference used).Denotes (freeSets mask used) := by
  refine BitSet.denotes_iff.mpr fun set => ?_
  rw [BitSet.contains_difference, freeSets, Finset.mem_filter, Finset.mem_range, Bool.and_eq_true, Bool.not_eq_true']
  exact ⟨fun h => ⟨BitSet.lt_capacity_of_contains h.1, h⟩, And.right⟩

/-- What is left for a card are the sets in its mask that are not used. -/
theorem left_eq_difference (hmask : options[card]? = some mask) (used : BitSet) :
    left options used card = mask.difference used := by
  rw [left, List.getD_eq_getElem?_getD, hmask, Option.getD_some]

theorem count_left_eq (hmask : options[card]? = some mask) (used : BitSet) :
    (left options used card).count = (freeSets mask used).card := by
  rw [left_eq_difference hmask, (denotes_difference mask used).count_eq]

/-- A card that is not placed has a mask. -/
theorem mem_unplaced_iff_exists :
    card ∈ unplaced options placed ↔ ∃ mask, options[card]? = some mask ∧ placed.contains card = false := by
  rw [mem_unplaced, exists_and_right]
  refine and_congr_left fun _ => ⟨fun hlt => ⟨_, List.getElem?_eq_getElem hlt⟩, ?_⟩
  rintro ⟨mask, hmask⟩
  exact (List.getElem?_eq_some_iff.mp hmask).1

/-- The first card with the fewest sets left, said of the sets left and of the masks. -/
theorem isEarliestFewest_iff (hmask : options[card]? = some mask) :
    IsEarliestFewest options placed used card mask ↔ IsFirstFewest options placed used options.length card := by
  have hcount : ∀ {other m}, options[other]? = some m → (left options used other).count = (freeSets m used).card :=
    fun hm => count_left_eq hm used
  constructor
  · intro h
    refine ⟨mem_unplaced_iff_exists.mpr ⟨mask, hmask, h.not_placed⟩, (List.getElem?_eq_some_iff.mp hmask).1, ?_, ?_⟩
    · intro other hother _
      obtain ⟨m, hm, hplaced⟩ := mem_unplaced_iff_exists.mp hother
      rw [hcount hmask, hcount hm]
      exact h.card_le other m hm hplaced
    · intro other hother hlt
      obtain ⟨m, hm, hplaced⟩ := mem_unplaced_iff_exists.mp hother
      rw [hcount hmask, hcount hm]
      exact h.card_lt other hlt m hm hplaced
  · intro h
    refine ⟨hmask, (mem_unplaced.mp h.mem).2, fun other m hm hplaced => ?_, fun other hlt m hm hplaced => ?_⟩
    · have hother := mem_unplaced_iff_exists.mpr ⟨m, hm, hplaced⟩
      rw [← hcount hmask, ← hcount hm]
      exact h.count_le other hother (mem_unplaced.mp hother).1
    · rw [← hcount hmask, ← hcount hm]
      exact h.count_lt other (mem_unplaced_iff_exists.mpr ⟨m, hm, hplaced⟩) hlt

/-- The sets that come with the card are known by the number of words and by the finite set that they stand for. -/
theorem eq_difference_iff {available : BitSet} :
    available = mask.difference used ↔
      available.words.length = mask.words.length ∧ available.Denotes (freeSets mask used) := by
  have hlen := BitSet.length_words_difference mask used
  constructor
  · rintro rfl
    exact ⟨hlen, denotes_difference mask used⟩
  · rintro ⟨hwords, hdenotes⟩
    exact (hdenotes.eq_iff (denotes_difference mask used) (hwords.trans hlen.symm)).mpr rfl

/-- **The next card is the earliest one with the fewest sets free, and comes with exactly these sets.**  There is none
exactly if every card is placed.  A scan that does not stop at a card without sets finds the same. -/
theorem mostConstrained_eq_earliest_fewest (options : List BitSet) (placed used : BitSet) :
    (mostConstrained options placed used = none ↔ ∀ card < options.length, placed.contains card = true) ∧
    (∀ card available, mostConstrained options placed used = some (card, available) ↔
      ∃ mask, IsEarliestFewest options placed used card mask ∧ available.words.length = mask.words.length ∧
        available.Denotes (freeSets mask used)) ∧
    mostConstrained options placed used =
      (scanAll placed used 0 none options).map fun best => (best.card, best.available) := by
  refine ⟨?_, fun card available => ?_, by rw [mostConstrained, scan_eq_scanAll]⟩
  · rw [mostConstrained_eq_none_iff, Finset.eq_empty_iff_forall_notMem]
    refine forall_congr' fun card => ?_
    rw [mem_unplaced, not_and, Bool.not_eq_false]
  · rw [mostConstrained_eq_some_iff]
    constructor
    · rintro ⟨hfirst, rfl⟩
      obtain ⟨mask, hmask, -⟩ := mem_unplaced_iff_exists.mp hfirst.mem
      exact ⟨mask, (isEarliestFewest_iff hmask).mpr hfirst, eq_difference_iff.mp (left_eq_difference hmask used)⟩
    · rintro ⟨mask, hearliest, hsets⟩
      refine ⟨(isEarliestFewest_iff hearliest.getElem?).mp hearliest, ?_⟩
      rw [left_eq_difference hearliest.getElem?]
      exact eq_difference_iff.mpr hsets

end Search

end DeckLegality
