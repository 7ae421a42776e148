import DeckLegality.Proofs.Verdict.Reports

/-!
# No sideboard and an empty one

A deck may be handed in without a sideboard, or with one that has no cards.  Both have the same cards, so the copy limit
and the legal sets cannot tell them apart; but an empty sideboard has a size, and a format may ask for more.

* `Violation.isDeckSize`: the violations by the size of the main deck.
* `FormatRules.sizeViolations_some_empty`: what the size of an empty sideboard adds.
* `Verifier.verify_some_empty`: the two verdicts side by side.
-/

namespace DeckLegality

/-- Whether the violation is about the size of the main deck. -/
def Violation.isDeckSize : Violation → Bool
  | deckTooSmall _ => true
  | deckTooLarge _ => true
  | _ => false

namespace FormatRules

variable {r : FormatRules} {size : ℕ} {w : Violation}

/-! ## Sizes -/

theorem isDeckSize_of_mem_deckSizeViolations (hw : w ∈ r.deckSizeViolations size) : w.isDeckSize = true := by
  rcases eq_of_mem_deckSizeViolations hw with rfl | ⟨max, rfl⟩
  · rfl
  · rfl

/-- A main deck cannot be too small and too large. -/
theorem length_deckSizeViolations_le (r : FormatRules) (size : ℕ) : (r.deckSizeViolations size).length ≤ 1 := by
  rw [deckSizeViolations_eq]
  split
  · exact Nat.le_refl 1
  · rw [List.length_map]
    exact Option.length_toList_le

/-- An empty sideboard is never too large. -/
theorem sideboardSizeViolations_zero (r : FormatRules) :
    r.sideboardSizeViolations 0 = if 0 < r.minSideboardSize then [.sideboardTooSmall r.minSideboardSize] else [] := by
  unfold sideboardSizeViolations
  rw [if_neg (Nat.not_lt_zero r.maxSideboardSize)]

theorem sizeViolations_some_empty (r : FormatRules) (main : Decklist) :
    r.sizeViolations main (some .empty) = r.sizeViolations main none ++
      if 0 < r.minSideboardSize then [.sideboardTooSmall r.minSideboardSize] else [] := by
  rw [sizeViolations_eq, sizeViolations_eq, Option.toList_some, List.flatMap_singleton, Option.toList_none,
    List.flatMap_nil, List.append_nil, ← sideboardSizeViolations_zero]
  rfl

end FormatRules

namespace Verifier

variable {w : Violation}

/-! ## The two verdicts -/

/-- What is wrong with the cards of a deck, each by itself. -/
def cardViolations (v : Verifier) (d : Decklist) (legal : Option SetCodes) : List Violation :=
  v.rules.copyLimitViolations d ++ v.legalityViolations d legal

theorem exists_card?_of_mem_cardViolations {v : Verifier} {d : Decklist} {legal : Option SetCodes}
    (hw : w ∈ v.cardViolations d legal) : ∃ n, w.card? = some n := by
  rw [cardViolations, FormatRules.copyLimitViolations_eq, legalityViolations_eq, List.mem_append, List.mem_map,
    List.mem_map] at hw
  rcases hw with ⟨n, -, rfl⟩ | ⟨n, -, rfl⟩
  · exact ⟨n, rfl⟩
  · exact ⟨n, rfl⟩

theorem violations_none (v : Verifier) (main : Decklist) (legal : Option SetCodes) :
    v.violations main none legal = v.rules.deckSizeViolations main.total ++ v.cardViolations main legal := by
  rw [violations, FormatRules.sizeViolations, List.append_nil, List.append_assoc, cardViolations]
  rfl

/-- Merging an empty sideboard leaves the main deck as it is. -/
theorem violations_some_empty (v : Verifier) (main : Decklist) (legal : Option SetCodes) :
    v.violations main (some .empty) legal =
      v.rules.deckSizeViolations main.total ++
        (if 0 < v.rules.minSideboardSize then [.sideboardTooSmall v.rules.minSideboardSize] else []) ++
          v.cardViolations main legal := by
  have hcombined : combined main (some .empty) = main := rfl
  rw [violations, hcombined, FormatRules.sizeViolations_some_empty, FormatRules.sizeViolations, List.append_nil,
    List.append_assoc, cardViolations]

/-- **An empty sideboard counts only by its size.**  Without a sideboard there is at most one violation by the size of
the main deck, and all others are about single cards.  With an empty sideboard there are the same violations in the
same order, and between the two parts the one that the sideboard is too small, if the format asks for cards in it.  So
the verdict is the same if and only if the format does not. -/
theorem verify_some_empty (v : Verifier) (main : Decklist) (legal : Option SetCodes) :
    ∃ deckSize cards : List Violation,
      (v.verify main none legal).violations = deckSize ++ cards ∧
      (v.verify main (some .empty) legal).violations =
        deckSize ++ (if 0 < v.rules.minSideboardSize then [.sideboardTooSmall v.rules.minSideboardSize] else []) ++
          cards ∧
      deckSize.length ≤ 1 ∧ (∀ w ∈ deckSize, w.isDeckSize = true) ∧ (∀ w ∈ cards, ∃ n, w.card? = some n) ∧
      (v.verify main (some .empty) legal = v.verify main none legal ↔ v.rules.minSideboardSize = 0) := by
  have hsame : v.verify main (some .empty) legal = v.verify main none legal ↔ v.rules.minSideboardSize = 0 := by
    constructor
    · intro hverify
      -- else there is one violation more
      have hlength := congrArg (fun verdict : Verdict => verdict.violations.length) hverify
      simp only [verify, Verdict.violations_ofViolations, violations_none, violations_some_empty,
        List.length_append] at hlength
      by_contra hmin
      rw [if_pos (Nat.pos_of_ne_zero hmin), List.length_singleton] at hlength
      omega
    · intro hmin
      rw [verify, verify, violations_none, violations_some_empty, hmin, if_neg (Nat.lt_irrefl 0), List.append_nil]
  refine ⟨v.rules.deckSizeViolations main.total, v.cardViolations main legal, ?_, ?_,
    v.rules.length_deckSizeViolations_le main.total, fun w => FormatRules.isDeckSize_of_mem_deckSizeViolations,
    fun w => exists_card?_of_mem_cardViolations, hsame⟩
  · rw [verify, Verdict.violations_ofViolations, violations_none]
  · rw [verify, Verdict.violations_ofViolations, violations_some_empty]

/-- A format that asks for a sideboard. -/
def demanding : Verifier := ⟨∅, ∅, { minSideboardSize := 15 }⟩

/-- Too few cards, and too many of one that is not known. -/
def fiveDispels : Decklist := .ofList [(⟨"Dispel"⟩, 5)]

theorem verify_some_empty_demanding :
    ∃ deckSize cards : List Violation,
      [.deckTooSmall 60, .tooManyCopies ⟨"Dispel"⟩ 4, .notLegal ⟨"Dispel"⟩] = deckSize ++ cards ∧
      (demanding.verify fiveDispels (some .empty) none).violations = deckSize ++ [.sideboardTooSmall 15] ++ cards ∧
      deckSize.length ≤ 1 ∧ ∀ w ∈ cards, ∃ n, w.card? = some n := by
  obtain ⟨deckSize, cards, hnone, hempty, hlength, -, hcards, -⟩ := verify_some_empty demanding fiveDispels none
  have homitted : (demanding.verify fiveDispels none none).violations =
      [.deckTooSmall 60, .tooManyCopies ⟨"Dispel"⟩ 4, .notLegal ⟨"Dispel"⟩] := by decide +kernel
  exact ⟨deckSize, cards, homitted.symm.trans hnone, hempty, hlength, hcards⟩

end Verifier

end DeckLegality
