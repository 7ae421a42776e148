import DeckLegality.Proofs.Pairing.Contents
import DeckLegality.Proofs.Pairing.Solve
import DeckLegality.Verifier

/-!
# Pairing the cards of a submission

A pairing of a submission starts from its two decklists and ends with the solver.  On the way the decklists are
merged, the printings of all cards are looked up at once and cut down to the legal sets, and the outcome is put into
candidate sets once more.  None of this loses a card or moves one: `Verifier.entries_candidates` lists the candidate
sets of a deck, one for each card, in the order of the deck.

* `Verifier.entries_candidates`: the candidate sets of a deck.
* `Verifier.isChoice_candidates_iff`: the choices of a submission, said of its two decklists and of the printings.
* `Verifier.exists_pairing_iff`: which submissions have a pairing, and what it holds.
-/

namespace DeckLegality

/-! ## What the printings hold -/

theorem CardPrintings.mem_legalPrintings {p : CardPrintings} {n : CardName} {legal : SetCodes} {code : SetCode} :
    code ∈ p.legalPrintings n legal ↔ ∃ codes, p.get? n = some codes ∧ code ∈ codes ∧ code ∈ legal := by
  unfold legalPrintings
  cases p.get? n with
  | none => simp
  | some codes => simp

theorem CardPrintings.mem_allSets {p : CardPrintings} {code : SetCode} :
    code ∈ p.allSets ↔ ∃ n codes, p.get? n = some codes ∧ code ∈ codes := by
  rw [allSets, SortedSet.mem_ofList, SortedMap.values, List.flatMap_map, List.mem_flatMap]
  constructor
  · rintro ⟨e, he, hcode⟩
    exact ⟨e.1, e.2, SortedMap.get?_eq_some_iff.mpr he, hcode⟩
  · rintro ⟨n, codes, hget, hcode⟩
    exact ⟨(n, codes), SortedMap.get?_eq_some_iff.mp hget, hcode⟩

/-! ## The cards of a submission -/

/-- The card `n` is in the main deck or in the sideboard. -/
def Submission.Lists (s : Submission) (n : CardName) : Prop := n ∈ s.maindeck.names ∨ n ∈ s.sideboard.names

theorem Submission.mem_names_merged {s : Submission} {n : CardName} : n ∈ s.merged.names ↔ s.Lists n :=
  Decklist.mem_names_merged

namespace Verifier

variable {v : Verifier} {s : Submission} {legal : Option SetCodes} {f : CardName → SetCode}

/-! ## The candidate sets of a deck -/

/-- The candidate sets of a deck are the legal printings of its cards, in the order of the deck. -/
theorem entries_candidates (v : Verifier) (d : Decklist) (legal : Option SetCodes) :
    (v.candidates d legal).entries =
      d.names.map fun n => (n, v.printings.legalPrintings n (v.effective legal)) := by
  have hnodup : ((d.names.map fun n =>
      (n, (v.printings.lookup d.names).legalPrintings n (v.effective legal))).map (·.1)).Nodup := by
    rw [List.map_map]
    exact (List.map_id d.names).symm ▸ d.nodup_names
  refine (Candidates.entries_ofList hnodup).trans (List.map_congr_left fun n hn => ?_)
  rw [CardPrintings.legalPrintings, CardPrintings.get?_lookup _ hn]
  rfl

theorem names_candidates (v : Verifier) (d : Decklist) (legal : Option SetCodes) :
    (v.candidates d legal).names = d.names := by
  rw [Candidates.names, entries_candidates, List.map_map]
  exact List.map_id d.names

/-- The candidate sets of a deck depend on its cards only, not on their copies. -/
theorem candidates_congr {d e : Decklist} (h : d.names = e.names) : v.candidates d legal = v.candidates e legal := by
  unfold candidates
  rw [h]

/-! ## Choices of a submission -/

/-- `f` gives every card of a submission a legal set that the card was printed in, and no two cards the same one. -/
structure PairsUniquely (v : Verifier) (s : Submission) (legal : Option SetCodes) (f : CardName → SetCode) :
    Prop where
  printed : ∀ n, s.Lists n → ∃ codes, v.printings.get? n = some codes ∧ f n ∈ codes
  isLegal : ∀ n, s.Lists n → f n ∈ legal.getD v.allSets
  injOn : Set.InjOn f {n | s.Lists n}

theorem mem_entries_candidates {e : CardName × SetCodes} :
    e ∈ (v.candidates s.merged legal).entries ↔
      s.Lists e.1 ∧ e.2 = v.printings.legalPrintings e.1 (v.effective legal) := by
  rw [entries_candidates, List.mem_map]
  constructor
  · rintro ⟨n, hn, rfl⟩
    exact ⟨Submission.mem_names_merged.mp hn, rfl⟩
  · rintro ⟨hn, hcodes⟩
    exact ⟨e.1, Submission.mem_names_merged.mpr hn, Prod.ext rfl hcodes.symm⟩

theorem isChoice_candidates_iff :
    (v.candidates s.merged legal).IsChoice f ↔ v.PairsUniquely s legal f := by
  have hcards : {n | n ∈ (v.candidates s.merged legal).names} = {n | s.Lists n} := by
    ext n
    show n ∈ (v.candidates s.merged legal).names ↔ s.Lists n
    rw [names_candidates, Submission.mem_names_merged]
  constructor
  · intro h
    have hf : ∀ n, s.Lists n → ∃ codes, v.printings.get? n = some codes ∧ f n ∈ codes ∧ f n ∈ v.effective legal :=
      fun n hn => CardPrintings.mem_legalPrintings.mp (h.mem (n, _) (mem_entries_candidates.mpr ⟨hn, rfl⟩))
    refine ⟨fun n hn => ?_, fun n hn => ?_, hcards ▸ h.injOn⟩
    · obtain ⟨codes, hget, hcode, -⟩ := hf n hn
      exact ⟨codes, hget, hcode⟩
    · obtain ⟨-, -, -, hlegal⟩ := hf n hn
      exact hlegal
  · intro h
    refine ⟨fun e he => ?_, hcards.symm ▸ h.injOn⟩
    obtain ⟨hn, hcodes⟩ := mem_entries_candidates.mp he
    obtain ⟨codes, hget, hcode⟩ := h.printed e.1 hn
    rw [hcodes]
    exact CardPrintings.mem_legalPrintings.mpr ⟨codes, hget, hcode, h.isLegal e.1 hn⟩

/-! ## The pairing of a submission -/

/-- A submission has a pairing if there is a choice for it. -/
theorem exists_pairing (hf : v.PairsUniquely s legal f) : ∃ p, v.pairing? s legal = some p := by
  rw [← Option.ne_none_iff_exists']
  exact fun hnone => Candidates.not_isChoice_of_solve hnone ⟨f, isChoice_candidates_iff.mpr hf⟩

/-- A pairing of a submission holds a choice for it. -/
theorem exists_pairsUniquely {p : Pairing} (h : v.pairing? s legal = some p) :
    ∃ f, v.PairsUniquely s legal f ∧ ∀ n code, p.get? n = some code ↔ s.Lists n ∧ f n = code := by
  obtain ⟨f, hf, hp⟩ := Candidates.exists_choice_of_solve h
  refine ⟨f, isChoice_candidates_iff.mp hf, fun n code => ?_⟩
  rw [hp, names_candidates, Submission.mem_names_merged]

/-- **A submission has a pairing exactly when its cards can be given sets of their own**: a legal set for each card of
main deck and sideboard, in which the card was printed, and never one set for two cards.  The pairing has exactly
these cards as its keys and holds such a choice.  How many copies there are of a card makes no difference: two
submissions with the same cards in the same order have the same pairing. -/
theorem exists_pairing_iff (v : Verifier) (s : Submission) (legal : Option SetCodes) :
    ((∃ p, v.pairing? s legal = some p) ↔ ∃ f, v.PairsUniquely s legal f) ∧
    (∀ p, v.pairing? s legal = some p → (∀ n, n ∈ p.keys ↔ s.Lists n) ∧
      ∃ f, v.PairsUniquely s legal f ∧ ∀ n, s.Lists n → p.get? n = some (f n)) ∧
    ∀ s' : Submission, s'.merged.names = s.merged.names → v.pairing? s' legal = v.pairing? s legal := by
  refine ⟨⟨?_, ?_⟩, fun p hp => ?_, fun s' hnames => ?_⟩
  · rintro ⟨p, hp⟩
    obtain ⟨f, hf, -⟩ := exists_pairsUniquely hp
    exact ⟨f, hf⟩
  · rintro ⟨f, hf⟩
    exact exists_pairing hf
  · obtain ⟨f, hf, hget⟩ := exists_pairsUniquely hp
    refine ⟨fun n => ?_, f, hf, fun n hn => (hget n _).mpr ⟨hn, rfl⟩⟩
    rw [SortedMap.mem_keys]
    constructor
    · rintro ⟨code, hcode⟩
      exact ((hget n code).mp hcode).1
    · intro hn
      exact ⟨f n, (hget n _).mpr ⟨hn, rfl⟩⟩
  · rw [pairing?, pairing?, candidates_congr hnames]

/-- One of two cards was printed in one set only. -/
def narrow : Verifier where
  printings := .ofList [(⟨"Dispel"⟩, .ofList [⟨"ALA"⟩, ⟨"M19"⟩]), (⟨"Shock"⟩, .ofList [⟨"ALA"⟩])]
  allSets := .ofList [⟨"ALA"⟩, ⟨"M19"⟩]

/-- A playset of the card that could take either set, and two copies of the other one. -/
def playset : Submission := ⟨.ofList [(⟨"Dispel"⟩, 3), (⟨"Shock"⟩, 2)], .ofList [(⟨"Dispel"⟩, 1)]⟩

/-- The same two cards, one in the main deck and one in the sideboard. -/
def single : Submission := ⟨.ofList [(⟨"Dispel"⟩, 1)], .ofList [(⟨"Shock"⟩, 1)]⟩

theorem exists_pairsUniquely_playset : ∃ f, narrow.PairsUniquely playset none f := by
  have hsolve : ((narrow.candidates playset.merged none).solve false).pairing =
      some (.ofList [(⟨"Dispel"⟩, ⟨"M19"⟩), (⟨"Shock"⟩, ⟨"ALA"⟩)]) := by decide +kernel
  obtain ⟨f, hf, -⟩ := Candidates.exists_choice_of_solve hsolve
  exact ⟨f, isChoice_candidates_iff.mp hf⟩

theorem exists_pairing_iff_playset :
    single.merged.names = playset.merged.names ∧
      ∃ p, narrow.pairing? playset none = some p ∧ (∀ n, n ∈ p.keys ↔ playset.Lists n) ∧
        (∃ f, narrow.PairsUniquely playset none f ∧ ∀ n, playset.Lists n → p.get? n = some (f n)) ∧
        narrow.pairing? single none = some p := by
  have hnames : single.merged.names = playset.merged.names := by decide +kernel
  obtain ⟨hexists, hpairing, hcongr⟩ := exists_pairing_iff narrow playset none
  obtain ⟨p, hp⟩ := hexists.mpr exists_pairsUniquely_playset
  exact ⟨hnames, p, hp, (hpairing p hp).1, (hpairing p hp).2, (hcongr single hnames).trans hp⟩

end Verifier

end DeckLegality
