import DeckLegality.Proofs.Pairing.Submission
import DeckLegality.Proofs.Verdict.Reports

/-!
# Legality and candidate sets

A verdict asks of each card whether some printing of it is legal; a pairing asks for all of them.  The two go different
ways: one looks for a common member of two sets, the other one lists the common members and files them under the
card.  They come to the same cards, so a submission that has a pairing has no card that is not legal.

* `CardPrintings.isLegal_eq_false_iff`: a card is not legal if it has no legal printings.
* `Verifier.filterMap_notLegal?_violations`: the cards that are not legal, as they are reported.
* `Verifier.notLegal_cards_eq`: they are the cards with an empty candidate set.
-/

namespace DeckLegality

/-- The card that is reported as not legal, if that is what the violation says. -/
def Violation.notLegal? : Violation → Option CardName
  | .notLegal card => some card
  | _ => none

theorem CardPrintings.isLegal_eq_false_iff {p : CardPrintings} {n : CardName} {legal : SetCodes} :
    p.isLegal n legal = false ↔ (p.legalPrintings n legal).isEmpty = true := by
  rw [← Bool.not_eq_true, isLegal_iff, SortedSet.isEmpty_iff, not_exists]

/-- A violation that is not the fault of a card reports none as not legal. -/
theorem Violation.notLegal?_of_card?_eq_none {w : Violation} (h : w.card? = none) : w.notLegal? = none := by
  cases w with
  | notLegal card => exact absurd h (Option.some_ne_none card)
  | _ => rfl

namespace Verifier

/-- Only the last part of a verdict names cards that are not legal. -/
theorem filterMap_notLegal?_violations (v : Verifier) (main : Decklist) (side : Option Decklist)
    (legal : Option SetCodes) :
    (v.violations main side legal).filterMap Violation.notLegal? = v.illegal (combined main side) legal := by
  have hsize : (v.rules.sizeViolations main side).filterMap Violation.notLegal? = [] :=
    List.filterMap_eq_nil_iff.mpr fun _ hw =>
      Violation.notLegal?_of_card?_eq_none (FormatRules.card?_of_mem_sizeViolations hw)
  have hcopies : (v.rules.copyLimitViolations (combined main side)).filterMap Violation.notLegal? = [] := by
    rw [FormatRules.copyLimitViolations_eq, List.filterMap_map]
    exact List.filterMap_eq_nil_iff.mpr fun _ _ => rfl
  have hlegal : (v.legalityViolations (combined main side) legal).filterMap Violation.notLegal? =
      v.illegal (combined main side) legal := by
    rw [legalityViolations_eq, List.filterMap_map]
    exact List.filterMap_some
  rw [violations, List.filterMap_append, List.filterMap_append, hsize, hcopies, hlegal]
  rfl

/-- The cards of a deck that are not legal are those with an empty candidate set. -/
theorem illegal_eq (v : Verifier) (d : Decklist) (legal : Option SetCodes) :
    v.illegal d legal = ((v.candidates d legal).entries.filter (·.2.isEmpty)).map (·.1) := by
  have hempty : ∀ n, (!v.printings.isLegal n (v.effective legal)) =
      (v.printings.legalPrintings n (v.effective legal)).isEmpty := by
    intro n
    rw [Bool.eq_iff_iff, Bool.not_eq_true', CardPrintings.isLegal_eq_false_iff]
  rw [illegal, entries_candidates, List.filter_map, List.map_map]
  simp only [hempty]
  exact (List.map_id _).symm

/-- **The cards that a verdict reports as not legal are the cards with an empty candidate set**, in the same order.
So where there is a pairing the verdict reports no card as not legal. -/
theorem notLegal_cards_eq (v : Verifier) (s : Submission) (legal : Option SetCodes) :
    (v.verifySubmission s legal).violations.filterMap Violation.notLegal? =
      ((v.candidates s.merged legal).entries.filter (·.2.isEmpty)).map (·.1) ∧
    ∀ p, v.pairing? s legal = some p → ∀ n, .notLegal n ∉ (v.verifySubmission s legal).violations := by
  have hcards : (v.verifySubmission s legal).violations.filterMap Violation.notLegal? =
      ((v.candidates s.merged legal).entries.filter (·.2.isEmpty)).map (·.1) := by
    rw [verifySubmission, verify, Verdict.violations_ofViolations, filterMap_notLegal?_violations, illegal_eq]
    rfl
  refine ⟨hcards, fun p hp n hn => ?_⟩
  have hmem : n ∈ (v.verifySubmission s legal).violations.filterMap Violation.notLegal? :=
    List.mem_filterMap.mpr ⟨_, hn, rfl⟩
  rw [hcards, List.mem_map] at hmem
  obtain ⟨e, he, rfl⟩ := hmem
  obtain ⟨hentry, hempty⟩ := List.mem_filter.mp he
  -- the choice that the pairing holds has a candidate for this card
  obtain ⟨f, hf, -⟩ := Candidates.exists_choice_of_solve hp
  exact SortedSet.isEmpty_iff.mp hempty _ (hf.mem e hentry)

theorem notLegal_cards_eq_playset :
    ∃ p, narrow.pairing? playset none = some p ∧
      ∀ n, .notLegal n ∉ (narrow.verifySubmission playset none).violations := by
  obtain ⟨f, hf⟩ := exists_pairsUniquely_playset
  obtain ⟨p, hp⟩ := exists_pairing hf
  exact ⟨p, hp, (notLegal_cards_eq narrow playset none).2 p hp⟩

end Verifier

end DeckLegality
