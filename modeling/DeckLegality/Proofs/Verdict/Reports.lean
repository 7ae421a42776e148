import DeckLegality.Proofs.Verdict.Violations

/-!
# What a verdict reports of a card

A verdict that is compared with another one is looked at card by card.  For each of the two things that it can report
of a card there is a condition on the deck and the format, without sorting, scanning or looking up in between, and it
is valid if it reports nothing of any card and the sizes are right.

* `FormatRules.card?_of_mem_sizeViolations`: the sizes are about no card.
* `Verifier.tooManyCopies_mem_iff`, `Verifier.notLegal_mem_iff`: when something is reported of a card.
* `Verifier.isValid_verify_iff`, `Verifier.isValid_verify_iff_forall_names`: when nothing is reported.
* `FormatRules.sizeViolations_eq_nil_iff`: when the sizes are right.
-/

namespace DeckLegality

namespace FormatRules

variable {r : FormatRules} {size : ℕ} {main : Decklist} {side : Option Decklist}

/-! ## Sizes -/

theorem eq_of_mem_deckSizeViolations {w : Violation} (hw : w ∈ r.deckSizeViolations size) :
    w = .deckTooSmall r.minDeckSize ∨ ∃ max, w = .deckTooLarge max := by
  rw [deckSizeViolations_eq] at hw
  split at hw
  · exact .inl (List.mem_singleton.mp hw)
  · obtain ⟨max, -, rfl⟩ := List.mem_map.mp hw
    exact .inr ⟨max, rfl⟩

theorem card?_of_mem_deckSizeViolations {w : Violation} (hw : w ∈ r.deckSizeViolations size) : w.card? = none := by
  rcases eq_of_mem_deckSizeViolations hw with rfl | ⟨max, rfl⟩
  · rfl
  · rfl

theorem card?_of_mem_sideboardSizeViolations {w : Violation} (hw : w ∈ r.sideboardSizeViolations size) :
    w.card? = none := by
  unfold sideboardSizeViolations at hw
  split at hw
  · rw [List.mem_singleton.mp hw]
    rfl
  · split at hw
    · rw [List.mem_singleton.mp hw]
      rfl
    · exact absurd hw List.not_mem_nil

/-- What is wrong with the sizes is not the fault of a card. -/
theorem card?_of_mem_sizeViolations {w : Violation} (hw : w ∈ r.sizeViolations main side) : w.card? = none := by
  rw [sizeViolations_eq] at hw
  rcases List.mem_append.mp hw with hw | hw
  · exact card?_of_mem_deckSizeViolations hw
  · obtain ⟨s, -, hw⟩ := List.mem_flatMap.mp hw
    exact card?_of_mem_sideboardSizeViolations hw

theorem deckSizeViolations_eq_nil_iff :
    r.deckSizeViolations size = [] ↔ r.minDeckSize ≤ size ∧ ∀ max, r.maxDeckSize = some max → size ≤ max := by
  rw [deckSizeViolations_eq]
  split
  · next hlt =>
    refine ⟨fun h => absurd h (List.cons_ne_nil _ _), fun h => ?_⟩
    omega
  · next hge =>
    rw [List.map_eq_nil_iff, Option.toList_eq_nil_iff, Option.filter_eq_none_iff]
    simp only [decide_eq_true_eq, Nat.not_lt] at hge ⊢
    exact (and_iff_right hge).symm

theorem sideboardSizeViolations_eq_nil_iff :
    r.sideboardSizeViolations size = [] ↔ r.minSideboardSize ≤ size ∧ size ≤ r.maxSideboardSize := by
  unfold sideboardSizeViolations
  split
  · next hlt =>
    refine ⟨fun h => absurd h (List.cons_ne_nil _ _), fun h => ?_⟩
    omega
  · split
    · next hlt =>
      refine ⟨fun h => absurd h (List.cons_ne_nil _ _), fun h => ?_⟩
      omega
    · refine ⟨fun _ => ?_, fun _ => rfl⟩
      omega

/-- The sizes are right if both lie within their limits. -/
theorem sizeViolations_eq_nil_iff :
    r.sizeViolations main side = [] ↔
      (r.minDeckSize ≤ main.total ∧ ∀ max, r.maxDeckSize = some max → main.total ≤ max) ∧
        ∀ s, side = some s → r.minSideboardSize ≤ s.total ∧ s.total ≤ r.maxSideboardSize := by
  rw [sizeViolations_eq, List.append_eq_nil_iff, deckSizeViolations_eq_nil_iff, List.flatMap_eq_nil_iff]
  simp only [Option.mem_toList, sideboardSizeViolations_eq_nil_iff]

end FormatRules

namespace Verifier

variable {v : Verifier} {main : Decklist} {side : Option Decklist} {legal : Option SetCodes} {n : CardName}

/-! ## Cards -/

/-- A violation is about the sizes, about the copies of a card or about the legality of a card. -/
theorem mem_violations_verify {w : Violation} :
    w ∈ (v.verify main side legal).violations ↔
      w ∈ v.rules.sizeViolations main side ∨
        (∃ n ∈ v.rules.overLimit (combined main side), .tooManyCopies n v.rules.maxCards = w) ∨
          ∃ n ∈ v.illegal (combined main side) legal, .notLegal n = w := by
  rw [verify, Verdict.violations_ofViolations, violations, FormatRules.copyLimitViolations_eq, legalityViolations_eq,
    List.mem_append, List.mem_append, List.mem_map, List.mem_map, or_assoc]

theorem mem_combinedNames_iff : n ∈ combinedNames main side ↔ 0 < combinedCount main side n := by
  rw [← names_combined, Decklist.mem_names_iff, count_combined]

/-- A card has too many copies if there are more in main deck and sideboard than the limit, and it is not exempt. -/
theorem tooManyCopies_mem_iff {max : ℕ} :
    .tooManyCopies n max ∈ (v.verify main side legal).violations ↔
      max = v.rules.maxCards ∧ v.rules.maxCards < combinedCount main side n ∧ n ∉ v.rules.exemptions := by
  rw [mem_violations_verify]
  constructor
  · rintro (hsize | ⟨m, hm, heq⟩ | ⟨m, -, heq⟩)
    · exact absurd (FormatRules.card?_of_mem_sizeViolations hsize) (Option.some_ne_none n)
    · obtain ⟨rfl, rfl⟩ := Violation.tooManyCopies.inj heq
      rw [FormatRules.mem_overLimit, count_combined] at hm
      exact ⟨rfl, hm⟩
    · exact Violation.noConfusion heq
  · rintro ⟨rfl, hover⟩
    refine Or.inr (Or.inl ⟨n, ?_, rfl⟩)
    rw [FormatRules.mem_overLimit, count_combined]
    exact hover

/-- A card is not legal if it is in main deck or sideboard and has no legal printing. -/
theorem notLegal_mem_iff :
    .notLegal n ∈ (v.verify main side legal).violations ↔
      0 < combinedCount main side n ∧ ∀ code, code ∉ v.printings.legalPrintings n (v.effective legal) := by
  have hillegal : n ∈ v.illegal (combined main side) legal ↔
      0 < combinedCount main side n ∧ ∀ code, code ∉ v.printings.legalPrintings n (v.effective legal) := by
    rw [illegal, List.mem_filter, names_combined, mem_combinedNames_iff, Bool.not_eq_true', ← Bool.not_eq_true,
      CardPrintings.isLegal_iff, not_exists]
  rw [mem_violations_verify, ← hillegal]
  constructor
  · rintro (hsize | ⟨m, -, heq⟩ | ⟨m, hm, heq⟩)
    · exact absurd (FormatRules.card?_of_mem_sizeViolations hsize) (Option.some_ne_none n)
    · exact Violation.noConfusion heq
    · obtain rfl := Violation.notLegal.inj heq
      exact hm
  · intro hn
    exact Or.inr (Or.inr ⟨n, hn, rfl⟩)

/-- A verdict is valid if the sizes are right and nothing is reported of any card. -/
theorem isValid_verify_iff :
    (v.verify main side legal).isValid = true ↔
      v.rules.sizeViolations main side = [] ∧
        (∀ n max, .tooManyCopies n max ∉ (v.verify main side legal).violations) ∧
          ∀ n, .notLegal n ∉ (v.verify main side legal).violations := by
  have hvalid : (v.verify main side legal).isValid = true ↔ (v.verify main side legal).violations = [] := by
    rw [verify, Verdict.isValid_ofViolations, List.isEmpty_iff, Verdict.violations_ofViolations]
  rw [hvalid, List.eq_nil_iff_forall_not_mem]
  constructor
  · intro h
    refine ⟨List.eq_nil_iff_forall_not_mem.mpr fun w hw => ?_, fun n max => h _, fun n => h _⟩
    exact h w (mem_violations_verify.mpr (Or.inl hw))
  · rintro ⟨hsize, hcopies, hlegal⟩ w hw
    rcases mem_violations_verify.mp hw with hw' | ⟨n, -, rfl⟩ | ⟨n, -, rfl⟩
    · rw [hsize] at hw'
      exact absurd hw' List.not_mem_nil
    · exact hcopies n _ hw
    · exact hlegal n hw

/-- A deck is valid if its sizes are right and every card of it is legal and, unless exempt, within the copy limit. -/
theorem isValid_verify_iff_forall_names :
    (v.verify main side legal).isValid = true ↔
      v.rules.sizeViolations main side = [] ∧ ∀ n ∈ combinedNames main side,
        (combinedCount main side n ≤ v.rules.maxCards ∨ n ∈ v.rules.exemptions) ∧
          v.printings.isLegal n (v.effective legal) = true := by
  rw [isValid_verify_iff]
  refine and_congr_right fun _ => ?_
  constructor
  · rintro ⟨hcopies, hlegal⟩ n hn
    constructor
    · by_contra hover
      rw [not_or, Nat.not_le] at hover
      exact hcopies n _ (tooManyCopies_mem_iff.mpr ⟨rfl, hover⟩)
    · by_contra hillegal
      rw [CardPrintings.isLegal_iff, not_exists] at hillegal
      exact hlegal n (notLegal_mem_iff.mpr ⟨mem_combinedNames_iff.mp hn, hillegal⟩)
  · intro h
    refine ⟨fun n max hmem => ?_, fun n hmem => ?_⟩
    · obtain ⟨-, hlt, hexempt⟩ := tooManyCopies_mem_iff.mp hmem
      rcases (h n (mem_combinedNames_iff.mpr (Nat.zero_lt_of_lt hlt))).1 with hle | hexempt'
      · exact Nat.not_lt.mpr hle hlt
      · exact hexempt hexempt'
    · obtain ⟨hpos, hnone⟩ := notLegal_mem_iff.mp hmem
      obtain ⟨code, hcode⟩ := (CardPrintings.isLegal_iff ..).mp (h n (mem_combinedNames_iff.mpr hpos)).2
      exact hnone code hcode

end Verifier

end DeckLegality
