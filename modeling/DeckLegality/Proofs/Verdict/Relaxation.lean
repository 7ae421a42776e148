import DeckLegality.Proofs.Pairing.Submission
import DeckLegality.Proofs.Verdict.Reports

/-!
# Relaxing a format

A format is relaxed by wider limits, by more exemptions or by more legal sets.  That never hurts a deck: a valid one
stays valid, nothing new is reported of a card, and cards that could be paired with sets still can be.  The pairing
itself may be another one, since the search takes the cards in another order; that there is one is what
`Verifier.exists_pairsUniquely` and `Verifier.exists_pairing` carry over.

Of the legal sets only those matter in which a card was printed.  So in a snapshot in which exactly the printed sets
exist, choosing no legal sets is at least as permissive as choosing any, even some that do not exist.

* `Verifier.noStricter_of_legalPrintings`: wider rules and more legal printings never hurt.
* `Verifier.noStricter_of_relaxedBy`: the same said of legal sets, and of choosing none.
-/

namespace DeckLegality

namespace FormatRules

/-- The rules `r'` are at least as permissive as the rules `r`. -/
structure RelaxedBy (r r' : FormatRules) : Prop where
  minDeckSize : r'.minDeckSize ≤ r.minDeckSize
  maxDeckSize : ∀ max', r'.maxDeckSize = some max' → ∃ max, r.maxDeckSize = some max ∧ max ≤ max'
  minSideboardSize : r'.minSideboardSize ≤ r.minSideboardSize
  maxSideboardSize : r.maxSideboardSize ≤ r'.maxSideboardSize
  maxCards : r.maxCards ≤ r'.maxCards
  exemptions : ∀ n ∈ r.exemptions, n ∈ r'.exemptions

/-- Sizes that are right stay right. -/
theorem RelaxedBy.sizeViolations_eq_nil {r r' : FormatRules} (h : r.RelaxedBy r') {main : Decklist}
    {side : Option Decklist} (hsize : r.sizeViolations main side = []) : r'.sizeViolations main side = [] := by
  obtain ⟨⟨hmin, hmax⟩, hside⟩ := sizeViolations_eq_nil_iff.mp hsize
  refine sizeViolations_eq_nil_iff.mpr ⟨⟨h.minDeckSize.trans hmin, fun max' hr' => ?_⟩, fun s hs => ?_⟩
  · obtain ⟨max, hr, hle⟩ := h.maxDeckSize max' hr'
    exact (hmax max hr).trans hle
  · obtain ⟨hminside, hmaxside⟩ := hside s hs
    exact ⟨h.minSideboardSize.trans hminside, hmaxside.trans h.maxSideboardSize⟩

end FormatRules

namespace Verifier

/-- Judging by `v'` with the legal sets `legal'` is no stricter than judging by `v` with the legal sets `legal`. -/
structure NoStricter (v' : Verifier) (legal' : Option SetCodes) (v : Verifier) (legal : Option SetCodes) : Prop where
  isValid : ∀ main side, (v.verify main side legal).isValid = true → (v'.verify main side legal').isValid = true
  tooManyCopies : ∀ main side n max', .tooManyCopies n max' ∈ (v'.verify main side legal').violations →
    ∃ max, .tooManyCopies n max ∈ (v.verify main side legal).violations
  notLegal : ∀ main side n, .notLegal n ∈ (v'.verify main side legal').violations →
    .notLegal n ∈ (v.verify main side legal).violations
  pairing : ∀ s, (∃ p, v.pairing? s legal = some p) → ∃ p, v'.pairing? s legal' = some p

variable {v v' : Verifier} {legal legal' : Option SetCodes} {main : Decklist} {side : Option Decklist} {n : CardName}

theorem tooManyCopies_mem_of_relaxedBy (hrules : v.rules.RelaxedBy v'.rules) {max' : ℕ}
    (h : .tooManyCopies n max' ∈ (v'.verify main side legal').violations) :
    .tooManyCopies n v.rules.maxCards ∈ (v.verify main side legal).violations := by
  obtain ⟨-, hlt, hexempt⟩ := tooManyCopies_mem_iff.mp h
  exact tooManyCopies_mem_iff.mpr ⟨rfl, hrules.maxCards.trans_lt hlt, mt (hrules.exemptions n) hexempt⟩

/-- Every legal printing of a card stays one. -/
def KeepsPrintings (v : Verifier) (legal : Option SetCodes) (v' : Verifier) (legal' : Option SetCodes) : Prop :=
  ∀ n code, code ∈ v.printings.legalPrintings n (v.effective legal) →
    code ∈ v'.printings.legalPrintings n (v'.effective legal')

theorem KeepsPrintings.notLegal_mem (hkeeps : KeepsPrintings v legal v' legal')
    (h : .notLegal n ∈ (v'.verify main side legal').violations) :
    .notLegal n ∈ (v.verify main side legal).violations := by
  obtain ⟨hpos, hnone⟩ := notLegal_mem_iff.mp h
  exact notLegal_mem_iff.mpr ⟨hpos, fun code => mt (hkeeps n code) (hnone code)⟩

/-- A choice for a submission is one of legal printings, of different ones for different cards. -/
theorem pairsUniquely_iff {s : Submission} {f : CardName → SetCode} :
    v.PairsUniquely s legal f ↔
      (∀ n, s.Lists n → f n ∈ v.printings.legalPrintings n (v.effective legal)) ∧ Set.InjOn f {n | s.Lists n} := by
  constructor
  · intro h
    refine ⟨fun n hn => CardPrintings.mem_legalPrintings.mpr ?_, h.injOn⟩
    obtain ⟨codes, hget, hcode⟩ := h.printed n hn
    exact ⟨codes, hget, hcode, h.isLegal n hn⟩
  · rintro ⟨hlegal, hinj⟩
    have hprinted := fun n hn => CardPrintings.mem_legalPrintings.mp (hlegal n hn)
    refine ⟨fun n hn => ?_, fun n hn => ?_, hinj⟩
    · obtain ⟨codes, hget, hcode, -⟩ := hprinted n hn
      exact ⟨codes, hget, hcode⟩
    · obtain ⟨-, -, -, hmem⟩ := hprinted n hn
      exact hmem

theorem KeepsPrintings.exists_pairing (hkeeps : KeepsPrintings v legal v' legal') {s : Submission}
    (h : ∃ p, v.pairing? s legal = some p) : ∃ p, v'.pairing? s legal' = some p := by
  obtain ⟨p, hp⟩ := h
  obtain ⟨f, hf, -⟩ := exists_pairsUniquely hp
  obtain ⟨hprinted, hinj⟩ := pairsUniquely_iff.mp hf
  exact Verifier.exists_pairing (pairsUniquely_iff.mpr ⟨fun n hn => hkeeps n _ (hprinted n hn), hinj⟩)

/-- Wider rules and more legal printings never hurt. -/
theorem noStricter_of_legalPrintings (hrules : v.rules.RelaxedBy v'.rules)
    (hkeeps : KeepsPrintings v legal v' legal') : NoStricter v' legal' v legal where
  isValid main side hvalid := by
    obtain ⟨hsize, hcopies, hlegal⟩ := isValid_verify_iff.mp hvalid
    refine isValid_verify_iff.mpr ⟨hrules.sizeViolations_eq_nil hsize, fun n max hmem => ?_, fun n hmem => ?_⟩
    · exact hcopies n _ (tooManyCopies_mem_of_relaxedBy hrules hmem)
    · exact hlegal n (hkeeps.notLegal_mem hmem)
  tooManyCopies main side n max' hmem := ⟨v.rules.maxCards, tooManyCopies_mem_of_relaxedBy hrules hmem⟩
  notLegal main side n hmem := hkeeps.notLegal_mem hmem
  pairing s h := hkeeps.exists_pairing h

/-! ## Legal sets -/

/-- With more legal sets every legal printing stays one. -/
theorem keepsPrintings_of_subset (hprintings : v.printings = v'.printings)
    (hsub : ∀ code ∈ v.effective legal, code ∈ v'.effective legal') : KeepsPrintings v legal v' legal' := by
  intro n code hcode
  obtain ⟨codes, hget, hmem, hlegal⟩ := CardPrintings.mem_legalPrintings.mp hcode
  rw [hprintings] at hget
  exact CardPrintings.mem_legalPrintings.mpr ⟨codes, hget, hmem, hsub code hlegal⟩

/-- Where exactly the printed sets exist, every printing is legal if no legal sets are chosen. -/
theorem keepsPrintings_ofPrintings (p : CardPrintings) (r r' : FormatRules) (codes : SetCodes) :
    KeepsPrintings ((Snapshot.ofPrintings p).verifier r) (some codes) ((Snapshot.ofPrintings p).verifier r') none := by
  intro n code hcode
  obtain ⟨printed, hget, hmem, -⟩ := CardPrintings.mem_legalPrintings.mp hcode
  exact CardPrintings.mem_legalPrintings.mpr
    ⟨printed, hget, hmem, CardPrintings.mem_allSets.mpr ⟨n, printed, hget, hmem⟩⟩

/-- **Relaxing a format never hurts.**  With rules that are at least as permissive and legal sets that include the
ones from before, a valid deck stays valid, no card is reported for anything that it was not reported for, and a
submission that has a pairing keeps one.  In a snapshot in which exactly the printed sets exist this is also so when
no legal sets are chosen instead of some, whichever these are. -/
theorem noStricter_of_relaxedBy :
    (∀ (v v' : Verifier) (legal legal' : Option SetCodes), v.printings = v'.printings →
      v.rules.RelaxedBy v'.rules → (∀ code ∈ v.effective legal, code ∈ v'.effective legal') →
      NoStricter v' legal' v legal) ∧
    ∀ (p : CardPrintings) (r r' : FormatRules) (codes : SetCodes), r.RelaxedBy r' →
      NoStricter ((Snapshot.ofPrintings p).verifier r') none ((Snapshot.ofPrintings p).verifier r) (some codes) := by
  refine ⟨fun v v' legal legal' hprintings hrules hsub => ?_, fun p r r' codes hrules => ?_⟩
  · exact noStricter_of_legalPrintings hrules (keepsPrintings_of_subset hprintings hsub)
  · exact noStricter_of_legalPrintings hrules (keepsPrintings_ofPrintings p r r' codes)

/-- A format with one copy of each card, main decks of two cards and the two cards of `narrow`. -/
def tight : Verifier := (Snapshot.ofPrintings narrow.printings).verifier (.singleton 2)

/-- The same cards, in a format with four copies of each and main decks from one card on. -/
def loose : Verifier := (Snapshot.ofPrintings narrow.printings).verifier { minDeckSize := 1 }

/-- A copy of each of the two cards. -/
def couple : Decklist := .ofList [(⟨"Dispel"⟩, 1), (⟨"Shock"⟩, 1)]

theorem relaxedBy_singleton : (FormatRules.singleton 2).RelaxedBy { minDeckSize := 1 } := by
  refine ⟨by decide, fun max' hmax => ?_, by decide, by decide, by decide, fun n hn => hn⟩
  exact absurd hmax.symm (Option.some_ne_none max')

theorem noStricter_of_relaxedBy_couple :
    (tight.verify couple none (some narrow.allSets)).isValid = true ∧
      (loose.verify couple none (some (narrow.allSets.insert ⟨"ZEN"⟩))).isValid = true ∧
      (loose.verify couple none none).isValid = true ∧
      ∃ p, loose.pairing? playset none = some p := by
  obtain ⟨hsubset, hprintings⟩ := noStricter_of_relaxedBy
  have hvalid : (tight.verify couple none (some narrow.allSets)).isValid = true :=
    isValid_verify_iff_forall_names.mpr (by decide +kernel)
  have hmore : NoStricter loose (some (narrow.allSets.insert ⟨"ZEN"⟩)) tight (some narrow.allSets) :=
    hsubset _ _ _ _ rfl relaxedBy_singleton fun code hcode => SortedSet.mem_insert.mpr (Or.inr hcode)
  have hall : NoStricter loose none tight (some narrow.allSets) := hprintings _ _ _ _ relaxedBy_singleton
  refine ⟨hvalid, hmore.isValid _ _ hvalid, hall.isValid _ _ hvalid, hall.pairing playset ?_⟩
  obtain ⟨f, hf⟩ := exists_pairsUniquely_playset
  exact Verifier.exists_pairing ⟨hf.printed, hf.isLegal, hf.injOn⟩

end Verifier

end DeckLegality
