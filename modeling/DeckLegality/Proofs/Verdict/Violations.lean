import DeckLegality.Proofs.Deck.MostCommon
import DeckLegality.Verifier

/-!
# What a verdict says

A verdict is put together from four parts: the sizes of main deck and sideboard, the copy limit, and the cards that
are not legal.  The last two parts are lists of cards.  A list of cards is described here by `ListsExactly`, that
is, by the cards that are in it and by the order in which they stand; it says nothing about sorting, scanning or
looking up.

* `FormatRules.listsExactly_overLimit`: the cards that the copy limit is held against.
* `Verifier.listsExactly_illegal`: the cards that are not legal.
* `Verifier.count_combined`, `Verifier.names_combined`: the deck that both parts are about.
* `Verifier.violations_verify_eq`: the violations of a verdict are these four parts in this order.
-/

namespace DeckLegality

/-- `l` lists the cards with the property `p` and no other ones, each `before` all later ones. -/
structure ListsExactly (p : CardName → Prop) (before : CardName → CardName → Prop) (l : List CardName) : Prop where
  mem_iff (n : CardName) : n ∈ l ↔ p n
  pairwise : l.Pairwise before

namespace FormatRules

/-! ## Sizes -/

theorem deckSizeViolations_eq (r : FormatRules) (size : ℕ) :
    r.deckSizeViolations size =
      if size < r.minDeckSize then [.deckTooSmall r.minDeckSize]
      else (r.maxDeckSize.filter (· < size)).toList.map .deckTooLarge := by
  unfold deckSizeViolations
  split
  · rfl
  · cases r.maxDeckSize with
    | none => rfl
    | some max =>
      by_cases hlt : max < size
      · rw [Option.filter_some, if_pos (decide_eq_true hlt)]
        exact if_pos hlt
      · rw [Option.filter_some, if_neg (by rwa [decide_eq_true_eq])]
        exact if_neg hlt

theorem sizeViolations_eq (r : FormatRules) (main : Decklist) (side : Option Decklist) :
    r.sizeViolations main side =
      r.deckSizeViolations main.total ++ side.toList.flatMap fun s => r.sideboardSizeViolations s.total := by
  cases side with
  | none => rfl
  | some s =>
    rw [Option.toList_some, List.flatMap_singleton]
    rfl

/-! ## The copy limit -/

/-- The cards of which there are too many copies, in the order in which they are reported. -/
def overLimit (r : FormatRules) (d : Decklist) : List CardName :=
  ((d.mostCommon.filter (r.maxCards < ·.2)).filter fun e => !r.exemptions.contains e.1).map (·.1)

/-- The scan by falling count finds every card that is over the limit. -/
theorem copyLimitViolations_eq (r : FormatRules) (d : Decklist) :
    r.copyLimitViolations d = (r.overLimit d).map (.tooManyCopies · r.maxCards) := by
  rw [copyLimitViolations, d.takeWhile_mostCommon, overLimit, List.map_map]
  rfl

theorem mem_overLimit {r : FormatRules} {d : Decklist} {n : CardName} :
    n ∈ r.overLimit d ↔ r.maxCards < d.count n ∧ n ∉ r.exemptions := by
  simp only [overLimit, List.mem_map, List.mem_filter, d.mem_mostCommon, decide_eq_true_eq, Bool.not_eq_true',
    ← Bool.not_eq_true, SortedSet.contains_iff]
  constructor
  · rintro ⟨⟨m, k⟩, ⟨⟨he, hlt⟩, hexempt⟩, rfl⟩
    exact ⟨by rwa [Decklist.count_of_mem he], hexempt⟩
  · rintro ⟨hlt, hexempt⟩
    have hn : n ∈ d.names := Decklist.mem_names_iff.mpr (Nat.zero_lt_of_lt hlt)
    obtain ⟨k, he⟩ := Decklist.mem_names_iff_exists.mp hn
    rw [Decklist.count_of_mem he] at hlt
    exact ⟨(n, k), ⟨⟨he, hlt⟩, hexempt⟩, rfl⟩

/-- The copy limit is held against every card that has more copies and is not exempt, by falling count and, among
cards with equally many copies, in the order of the list. -/
theorem listsExactly_overLimit (r : FormatRules) (d : Decklist) :
    ListsExactly (fun n => r.maxCards < d.count n ∧ n ∉ r.exemptions)
      (fun m n => d.count n < d.count m ∨ d.count m = d.count n ∧ d.names.idxOf m < d.names.idxOf n)
      (r.overLimit d) where
  mem_iff _ := mem_overLimit
  pairwise := by
    rw [overLimit, List.pairwise_map]
    have hsub := (List.filter_sublist.trans List.filter_sublist :
      ((d.mostCommon.filter (r.maxCards < ·.2)).filter fun e => !r.exemptions.contains e.1).Sublist d.mostCommon)
    refine (d.pairwise_mostCommon.sublist hsub).imp_of_mem fun {a b} ha hb hab => ?_
    rwa [Decklist.count_of_mem (d.mem_mostCommon.mp (hsub.subset ha)),
      Decklist.count_of_mem (d.mem_mostCommon.mp (hsub.subset hb))]

end FormatRules

/-! ## Legality -/

/-- The card `n` has a printing in one of the sets `legal`; a card that is not known has none. -/
def CardPrintings.HasPrintingIn (p : CardPrintings) (n : CardName) (legal : SetCodes) : Prop :=
  ∃ codes, p.get? n = some codes ∧ ∃ code ∈ codes, code ∈ legal

theorem CardPrintings.isLegal_iff_hasPrintingIn {p : CardPrintings} {n : CardName} {legal : SetCodes} :
    p.isLegal n legal = true ↔ p.HasPrintingIn n legal := by
  unfold isLegal HasPrintingIn
  cases p.get? n with
  | none => simp
  | some codes => simp [SortedSet.intersects_iff]

namespace Verifier

/-- The cards that are not legal, in the order in which they are reported. -/
def illegal (v : Verifier) (d : Decklist) (legal : Option SetCodes) : List CardName :=
  d.names.filter fun n => !v.printings.isLegal n (v.effective legal)

/-- Looking up the printings of all cards at once makes no difference to any card. -/
theorem legalityViolations_eq (v : Verifier) (d : Decklist) (legal : Option SetCodes) :
    v.legalityViolations d legal = (v.illegal d legal).map .notLegal := by
  have hlookup : ∀ n ∈ d.names, (!(v.printings.lookup d.names).isLegal n (v.effective legal)) =
      !v.printings.isLegal n (v.effective legal) := by
    intro n hn
    rw [CardPrintings.isLegal, CardPrintings.isLegal, CardPrintings.get?_lookup _ hn]
  rw [illegal, ← List.filter_congr hlookup]
  rfl

/-- Exactly the cards without a legal printing are not legal; they are in the order of the list. -/
theorem listsExactly_illegal (v : Verifier) (d : Decklist) (legal : Option SetCodes) :
    ListsExactly (fun n => n ∈ d.names ∧ ¬ v.printings.HasPrintingIn n (v.effective legal))
      (fun m n => d.names.idxOf m < d.names.idxOf n) (v.illegal d legal) where
  mem_iff n := by
    rw [illegal, List.mem_filter, Bool.not_eq_true', ← Bool.not_eq_true, CardPrintings.isLegal_iff_hasPrintingIn]
  pairwise := (pairwise_idxOf d.nodup_names).filter _

/-! ## Main deck and sideboard together -/

/-- The copies of the card `n` in main deck and sideboard together. -/
def combinedCount (main : Decklist) (side : Option Decklist) (n : CardName) : ℕ :=
  addCopies (main.count n) ((side.map (·.count n)).getD 0)

/-- The cards of main deck and sideboard, each where it is seen first. -/
def combinedNames (main : Decklist) (side : Option Decklist) : List CardName :=
  (main.names ++ (side.map (·.names)).getD []).eraseDups

theorem count_combined (main : Decklist) (side : Option Decklist) :
    (combined main side).count = combinedCount main side := by
  funext n
  cases side with
  | none => exact (addCopies_zero (main.count_le n)).symm
  | some s => exact main.count_merged s n

theorem names_combined (main : Decklist) (side : Option Decklist) :
    (combined main side).names = combinedNames main side := by
  cases side with
  | none =>
    show main.names = (main.names ++ []).eraseDups
    rw [List.append_nil, eraseDups_of_nodup main.nodup_names]
  | some s => exact main.names_merged s

/-! ## The verdict -/

/-- **The violations of a verdict**, all of them and in their order.  The size of the main deck comes first and
then, if there is a sideboard, its size; neither counts the cards of the other.  Then follow all cards with more
copies in both than the limit allows, by falling count and among equals as they are seen first, and at last all
cards without a legal printing, as they are seen first.  The deck is valid if there is none of these. -/
theorem violations_verify_eq (v : Verifier) (main : Decklist) (side : Option Decklist) (legal : Option SetCodes) :
    ∃ (deckSize sideSize : List Violation) (excess unplayable : List CardName),
      (v.verify main side legal).violations =
        deckSize ++ sideSize ++ excess.map (.tooManyCopies · v.rules.maxCards) ++ unplayable.map .notLegal ∧
      ((v.verify main side legal).isValid = true ↔
        deckSize = [] ∧ sideSize = [] ∧ excess = [] ∧ unplayable = []) ∧
      deckSize = (if main.total < v.rules.minDeckSize then [.deckTooSmall v.rules.minDeckSize]
        else (v.rules.maxDeckSize.filter (· < main.total)).toList.map .deckTooLarge) ∧
      sideSize = side.toList.flatMap (fun s =>
        if s.total < v.rules.minSideboardSize then [.sideboardTooSmall v.rules.minSideboardSize]
        else if v.rules.maxSideboardSize < s.total then [.sideboardTooLarge v.rules.maxSideboardSize]
        else []) ∧
      ListsExactly (fun n => v.rules.maxCards < combinedCount main side n ∧ n ∉ v.rules.exemptions)
        (fun m n => combinedCount main side n < combinedCount main side m ∨
          combinedCount main side m = combinedCount main side n ∧
            (combinedNames main side).idxOf m < (combinedNames main side).idxOf n) excess ∧
      ListsExactly (fun n => n ∈ combinedNames main side ∧
          ¬ v.printings.HasPrintingIn n (legal.getD v.allSets))
        (fun m n => (combinedNames main side).idxOf m < (combinedNames main side).idxOf n) unplayable := by
  have hviol : v.violations main side legal =
      v.rules.deckSizeViolations main.total ++ side.toList.flatMap (fun s => v.rules.sideboardSizeViolations s.total)
        ++ (v.rules.overLimit (combined main side)).map (.tooManyCopies · v.rules.maxCards)
        ++ (v.illegal (combined main side) legal).map .notLegal := by
    rw [violations, FormatRules.copyLimitViolations_eq, legalityViolations_eq]
    cases side with
    | none => rfl
    | some s =>
      rw [Option.toList_some, List.flatMap_singleton]
      rfl
  refine ⟨v.rules.deckSizeViolations main.total,
    side.toList.flatMap fun s => v.rules.sideboardSizeViolations s.total,
    v.rules.overLimit (combined main side), v.illegal (combined main side) legal, ?_, ?_,
    v.rules.deckSizeViolations_eq main.total, rfl, ?_, ?_⟩
  · rw [verify, Verdict.violations_ofViolations, hviol]
  · rw [verify, Verdict.isValid_ofViolations, List.isEmpty_iff, hviol]
    simp only [List.append_eq_nil_iff, List.map_eq_nil_iff, and_assoc]
  · have hover := v.rules.listsExactly_overLimit (combined main side)
    rwa [count_combined, names_combined] at hover
  · have hillegal := v.listsExactly_illegal (combined main side) legal
    rwa [names_combined] at hillegal

end Verifier

end DeckLegality
