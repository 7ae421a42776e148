import DeckLegality.Proofs.Verdict.Agreement

/-!
# What the results depend on

Of everything that a verifier knows about printings and sets, only the legal printings of the cards of the deck show in
what it says of the deck.  Two verifiers that agree on these give the same verdict, the same candidate sets and the
same pairing, however much they differ elsewhere: in other cards, in printings that are not legal, and in whether a
card without a legal printing is known at all.

The printings may therefore be pruned to what the deck needs, and the sets to those that are left in the printings.

* `Verifier.AgreeOn`: two verifiers know the same legal printings of some cards.
* `Verifier.agreeOn_iff_candidates_eq`: this shows in the candidate sets.
* `Verifier.sameResults_of_agreeOn`: then they say the same of these cards, and pruning changes nothing.
-/

namespace DeckLegality

namespace CardPrintings

/-- The card `n` was printed in the set `code`, which is one of the sets `legal`. -/
def PrintedIn (p : CardPrintings) (n : CardName) (legal : SetCodes) (code : SetCode) : Prop :=
  ∃ codes, p.get? n = some codes ∧ code ∈ codes ∧ code ∈ legal

/-- The legal printings of some cards.  Cards without a legal printing are not known any more. -/
def pruned (p : CardPrintings) (names : List CardName) (legal : SetCodes) : CardPrintings :=
  .ofList ((names.filter (p.isLegal · legal)).map fun n => (n, p.legalPrintings n legal))

variable {p : CardPrintings} {names : List CardName} {legal codes : SetCodes} {n : CardName} {code : SetCode}

theorem get?_pruned_eq_some_iff :
    (p.pruned names legal).get? n = some codes ↔
      n ∈ names ∧ p.isLegal n legal = true ∧ p.legalPrintings n legal = codes := by
  have hmem : ∀ e : CardName × SetCodes,
      e ∈ (names.filter (p.isLegal · legal)).map (fun n => (n, p.legalPrintings n legal)) ↔
        e.1 ∈ names ∧ p.isLegal e.1 legal = true ∧ p.legalPrintings e.1 legal = e.2 := by
    rintro ⟨m, codes⟩
    simp only [List.mem_map, List.mem_filter, Prod.mk.injEq, and_assoc]
    constructor
    · rintro ⟨_, hm, hlegal, rfl, rfl⟩
      exact ⟨hm, hlegal, rfl⟩
    · rintro ⟨hm, hlegal, rfl⟩
      exact ⟨m, hm, hlegal, rfl, rfl⟩
  rw [pruned, SortedMap.get?_ofList_eq_some_iff, hmem]
  rintro ⟨m, codes⟩ he ⟨_, codes'⟩ he' rfl
  obtain ⟨-, -, hcodes⟩ := (hmem _).mp he
  obtain ⟨-, -, hcodes'⟩ := (hmem _).mp he'
  exact congrArg (Prod.mk m) (hcodes.symm.trans hcodes')

/-- Pruning keeps the legal printings of the cards, and all sets that are left are sets of one of them. -/
theorem printedIn_pruned_iff (hn : n ∈ names) :
    (p.pruned names legal).PrintedIn n (p.pruned names legal).allSets code ↔ p.PrintedIn n legal code := by
  constructor
  · rintro ⟨codes, hget, hcode, -⟩
    obtain ⟨-, -, rfl⟩ := get?_pruned_eq_some_iff.mp hget
    exact mem_legalPrintings.mp hcode
  · intro h
    have hcode : code ∈ p.legalPrintings n legal := mem_legalPrintings.mpr h
    have hget : (p.pruned names legal).get? n = some (p.legalPrintings n legal) :=
      get?_pruned_eq_some_iff.mpr ⟨hn, (p.isLegal_iff n legal).mpr ⟨code, hcode⟩, rfl⟩
    exact ⟨_, hget, hcode, mem_allSets.mpr ⟨n, _, hget, hcode⟩⟩

end CardPrintings

namespace Verifier

/-- The verifiers `v` and `v'` know the same legal printings of some cards, each with its choice of legal sets. -/
def AgreeOn (v : Verifier) (legal : Option SetCodes) (v' : Verifier) (legal' : Option SetCodes)
    (names : List CardName) : Prop :=
  ∀ n ∈ names, ∀ code,
    v.printings.PrintedIn n (v.effective legal) code ↔ v'.printings.PrintedIn n (v'.effective legal') code

variable {v v' : Verifier} {legal legal' : Option SetCodes} {names : List CardName}

/-- Whether two verifiers agree is a matter of finitely many comparisons. -/
theorem agreeOn_iff :
    AgreeOn v legal v' legal' names ↔ ∀ n ∈ names,
      v.printings.legalPrintings n (v.effective legal) = v'.printings.legalPrintings n (v'.effective legal') := by
  refine forall₂_congr fun n _ => ⟨fun h => SortedSet.ext_mem fun code => ?_, fun h code => ?_⟩
  · rw [CardPrintings.mem_legalPrintings, CardPrintings.mem_legalPrintings]
    exact h code
  · rw [CardPrintings.PrintedIn, CardPrintings.PrintedIn, ← CardPrintings.mem_legalPrintings, h,
      CardPrintings.mem_legalPrintings]

/-- Two verifiers agree on the cards of a deck if and only if these have the same candidate sets. -/
theorem agreeOn_iff_candidates_eq {d : Decklist} :
    AgreeOn v legal v' legal' d.names ↔ v.candidates d legal = v'.candidates d legal' := by
  rw [agreeOn_iff]
  constructor
  · intro h
    refine Candidates.ext_entries ?_
    rw [entries_candidates, entries_candidates]
    exact List.map_congr_left fun n hn => by rw [h n hn]
  · intro h n hn
    have hentries : (v.candidates d legal).entries = (v'.candidates d legal').entries := congrArg (·.entries) h
    rw [entries_candidates, entries_candidates] at hentries
    exact (Prod.mk.inj (List.map_inj_left.mp hentries n hn)).2

namespace AgreeOn

/-! ## The parts of a verdict -/

/-- The same cards are not legal: they are those with an empty candidate set. -/
theorem illegal_eq {d : Decklist} (h : AgreeOn v legal v' legal' d.names) :
    v.illegal d legal = v'.illegal d legal' := by
  rw [Verifier.illegal_eq, Verifier.illegal_eq, agreeOn_iff_candidates_eq.mp h]

/-- The verdict is the same. -/
theorem verify_eq {main : Decklist} {side : Option Decklist} (hrules : v.rules = v'.rules)
    (h : AgreeOn v legal v' legal' (combined main side).names) :
    v.verify main side legal = v'.verify main side legal' := by
  have hillegal : v.legalityViolations (combined main side) legal =
      v'.legalityViolations (combined main side) legal' := by
    rw [legalityViolations_eq, legalityViolations_eq, h.illegal_eq]
  rw [verify, verify, violations, violations, hrules, hillegal]

end AgreeOn

/-! ## All results -/

/-- What comes out for a main deck and a sideboard is the same: the verdict, the candidate sets of the cards and the
pairing of the submission. -/
structure SameResults (v : Verifier) (legal : Option SetCodes) (v' : Verifier) (legal' : Option SetCodes)
    (main : Decklist) (side : Option Decklist) : Prop where
  verify : v.verify main side legal = v'.verify main side legal'
  candidates : v.candidates (combined main side) legal = v'.candidates (combined main side) legal'
  pairing : v.pairing? ⟨main, side.getD .empty⟩ legal = v'.pairing? ⟨main, side.getD .empty⟩ legal'

/-- The cards of a submission are those that are judged. -/
theorem merged_submission (main : Decklist) (side : Option Decklist) :
    Submission.merged ⟨main, side.getD .empty⟩ = combined main side := by
  cases side with
  | none => rfl
  | some s => rfl

theorem AgreeOn.sameResults {main : Decklist} {side : Option Decklist} (hrules : v.rules = v'.rules)
    (h : AgreeOn v legal v' legal' (combinedNames main side)) : SameResults v legal v' legal' main side := by
  rw [← names_combined] at h
  have hcandidates := agreeOn_iff_candidates_eq.mp h
  refine ⟨h.verify_eq hrules, hcandidates, ?_⟩
  rw [pairing?, pairing?, merged_submission, hcandidates]

/-- **The results depend on the legal printings of the cards of the deck, and on nothing else.**  If for each card of
main deck and sideboard two verifiers with the same rules know the same legal printings, a card that is not known
having none, the verdict has the same violations in the same order, and the candidate sets and the pairing are the
same.  So it is as good to know nothing but these printings: no other card, no printing that is not legal and no card
without a legal printing.  It is not as good to know less, since the candidate sets tell these printings apart. -/
theorem sameResults_of_agreeOn :
    (∀ (v v' : Verifier) (legal legal' : Option SetCodes) (main : Decklist) (side : Option Decklist),
      v.rules = v'.rules → AgreeOn v legal v' legal' (combinedNames main side) →
      SameResults v legal v' legal' main side) ∧
    (∀ (v : Verifier) (legal : Option SetCodes) (main : Decklist) (side : Option Decklist),
      SameResults v legal
        ((Snapshot.ofPrintings (v.printings.pruned (combinedNames main side) (v.effective legal))).verifier v.rules)
        none main side) ∧
    ∀ (v v' : Verifier) (legal legal' : Option SetCodes) (main : Decklist) (side : Option Decklist),
      SameResults v legal v' legal' main side → AgreeOn v legal v' legal' (combinedNames main side) := by
  refine ⟨fun v v' legal legal' main side hrules hagree => hagree.sameResults hrules,
    fun v legal main side => AgreeOn.sameResults rfl fun n hn code => ?_, fun v v' legal legal' main side h => ?_⟩
  · exact (CardPrintings.printedIn_pruned_iff hn).symm
  · rw [← names_combined]
    exact agreeOn_iff_candidates_eq.mpr h.candidates

/-- The two cards of `narrow` with a printing more that is not legal, a card that is known but not legal, and a card
that is not played. -/
def crowded : Verifier where
  printings := .ofList
    [(⟨"Black Lotus"⟩, .ofList [⟨"LEA"⟩]), (⟨"Dispel"⟩, .ofList [⟨"ALA"⟩, ⟨"LEA"⟩, ⟨"M19"⟩]),
      (⟨"Opt"⟩, .ofList [⟨"XLN"⟩]), (⟨"Shock"⟩, .ofList [⟨"ALA"⟩])]
  allSets := .ofList [⟨"ALA"⟩, ⟨"LEA"⟩, ⟨"M19"⟩, ⟨"XLN"⟩]

/-- Three cards, one of which `narrow` does not know. -/
def powered : Decklist := .ofList [(⟨"Dispel"⟩, 4), (⟨"Black Lotus"⟩, 1), (⟨"Shock"⟩, 2)]

/-- The legal sets, of which one is of no use to these cards. -/
def modern : SetCodes := .ofList [⟨"ALA"⟩, ⟨"M19"⟩, ⟨"XLN"⟩]

theorem sameResults_of_agreeOn_crowded :
    (∃ codes, crowded.printings.get? ⟨"Black Lotus"⟩ = some codes) ∧
      narrow.printings.get? ⟨"Black Lotus"⟩ = none ∧
      SameResults crowded (some modern) narrow none powered none ∧
      SameResults crowded (some modern) narrow none playset.maindeck (some playset.sideboard) ∧
      AgreeOn narrow none crowded (some modern) (combinedNames powered none) := by
  obtain ⟨hsame, -, hagree⟩ := sameResults_of_agreeOn
  have hpowered : AgreeOn crowded (some modern) narrow none (combinedNames powered none) :=
    agreeOn_iff.mpr (by decide +kernel)
  have hplayset : AgreeOn crowded (some modern) narrow none
      (combinedNames playset.maindeck (some playset.sideboard)) := agreeOn_iff.mpr (by decide +kernel)
  have hresults : SameResults crowded (some modern) narrow none powered none := hsame _ _ _ _ _ _ rfl hpowered
  refine ⟨⟨.ofList [⟨"LEA"⟩], by decide +kernel⟩, by decide +kernel, hresults, hsame _ _ _ _ _ _ rfl hplayset, ?_⟩
  exact hagree _ _ _ _ _ _ ⟨hresults.verify.symm, hresults.candidates.symm, hresults.pairing.symm⟩

end Verifier

end DeckLegality
