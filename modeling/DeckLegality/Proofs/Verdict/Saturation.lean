import DeckLegality.Proofs.Deck.Totals
import DeckLegality.Proofs.Verdict.Violations

/-!
# Counts that stop and verdicts

Counts stop at the largest count, and totals are sums of such counts.  `Verifier.exactViolations` judges a deck by
the copies that were put in, counted without end.  A format whose limits are all below the largest count
(`FormatRules.BelowMaxCount`) cannot tell the two apart: each of its limits is compared with a count or a total, and
as far as the largest count both are what they should be.

* `Verifier.combinedCount_ofList`: the count of a card in main deck and sideboard together stops once.
* `Verifier.mem_violations_iff_mem_exactViolations`: both ways of counting find the same violations.
-/

namespace DeckLegality

open Text (maxCount)

namespace FormatRules

/-- All limits are below the largest count; a least size may be as large. -/
structure BelowMaxCount (r : FormatRules) : Prop where
  maxCards : r.maxCards < maxCount
  minDeckSize : r.minDeckSize ≤ maxCount
  maxDeckSize : ∀ max, r.maxDeckSize = some max → max < maxCount
  minSideboardSize : r.minSideboardSize ≤ maxCount
  maxSideboardSize : r.maxSideboardSize < maxCount

variable {r : FormatRules} {s t : ℕ}

/-! ## Sizes that agree up to the largest count -/

theorem BelowMaxCount.deckSizeViolations_congr (h : r.BelowMaxCount) (hst : min s maxCount = min t maxCount) :
    r.deckSizeViolations s = r.deckSizeViolations t := by
  have hmin : s < r.minDeckSize ↔ t < r.minDeckSize := by
    have := h.minDeckSize
    omega
  have hmax : ∀ max, r.maxDeckSize = some max → (max < s ↔ max < t) := by
    intro max hr
    have := h.maxDeckSize max hr
    omega
  unfold deckSizeViolations
  simp only [hmin]
  cases hr : r.maxDeckSize with
  | none => rfl
  | some max => simp only [hmax max hr]

theorem BelowMaxCount.sideboardSizeViolations_congr (h : r.BelowMaxCount)
    (hst : min s maxCount = min t maxCount) : r.sideboardSizeViolations s = r.sideboardSizeViolations t := by
  have hmin : s < r.minSideboardSize ↔ t < r.minSideboardSize := by
    have := h.minSideboardSize
    omega
  have hmax : r.maxSideboardSize < s ↔ r.maxSideboardSize < t := by
    have := h.maxSideboardSize
    omega
  unfold sideboardSizeViolations
  simp only [hmin, hmax]

end FormatRules

namespace Verifier

/-! ## Counting without end -/

/-- The entries that are judged: those of the main deck, with those of the sideboard if there is one. -/
def combinedEntries (main : List (CardName × ℕ)) (side : Option (List (CardName × ℕ))) : List (CardName × ℕ) :=
  main ++ side.getD []

/-- Everything that is wrong with a deck whose copies are counted without end. -/
def exactViolations (v : Verifier) (main : List (CardName × ℕ)) (side : Option (List (CardName × ℕ)))
    (legal : Option SetCodes) : List Violation :=
  let all := combinedEntries main side
  v.rules.deckSizeViolations (copies main)
    ++ side.toList.flatMap (fun l => v.rules.sideboardSizeViolations (copies l))
    ++ ((cardsIn all).filter fun n => v.rules.maxCards < copiesIn n all ∧ n ∉ v.rules.exemptions).map
      (.tooManyCopies · v.rules.maxCards)
    ++ ((cardsIn all).filter fun n => !v.printings.isLegal n (legal.getD v.allSets)).map .notLegal

variable {v : Verifier} {main : List (CardName × ℕ)} {side : Option (List (CardName × ℕ))} {n : CardName}

/-- A count that stops in main deck, in the sideboard and in both together stops once. -/
theorem combinedCount_ofList (main : List (CardName × ℕ)) (side : Option (List (CardName × ℕ))) (n : CardName) :
    combinedCount (.ofList main) (side.map .ofList) n = min (copiesIn n (combinedEntries main side)) maxCount := by
  have hside : (((side.map Decklist.ofList).map (·.count n)).getD 0) = min (copiesIn n (side.getD [])) maxCount := by
    cases side with
    | none => rfl
    | some l => exact Decklist.count_ofList l n
  rw [combinedCount, hside, Decklist.count_ofList, combinedEntries, copiesIn_append, addCopies]
  omega

theorem mem_names_combined_ofList :
    n ∈ (combined (.ofList main) (side.map .ofList)).names ↔ n ∈ cardsIn (combinedEntries main side) := by
  rw [Decklist.mem_names_iff, count_combined, combinedCount_ofList, mem_cardsIn, Nat.lt_min]
  exact and_iff_left (by decide)

/-! ## The parts of the verdict -/

theorem sizeViolations_ofList (h : v.rules.BelowMaxCount) :
    v.rules.sizeViolations (.ofList main) (side.map .ofList) =
      v.rules.deckSizeViolations (copies main)
        ++ side.toList.flatMap fun l => v.rules.sideboardSizeViolations (copies l) := by
  rw [FormatRules.sizeViolations_eq, h.deckSizeViolations_congr (Decklist.min_total_ofList main)]
  cases side with
  | none => rfl
  | some l =>
    rw [Option.map_some, Option.toList_some, Option.toList_some, List.flatMap_singleton, List.flatMap_singleton,
      h.sideboardSizeViolations_congr (Decklist.min_total_ofList l)]

theorem mem_overLimit_ofList (h : v.rules.BelowMaxCount) :
    n ∈ v.rules.overLimit (combined (.ofList main) (side.map .ofList)) ↔
      n ∈ (cardsIn (combinedEntries main side)).filter fun n =>
        v.rules.maxCards < copiesIn n (combinedEntries main side) ∧ n ∉ v.rules.exemptions := by
  have hmax := h.maxCards
  rw [FormatRules.mem_overLimit, count_combined, combinedCount_ofList, List.mem_filter, mem_cardsIn,
    decide_eq_true_eq, Nat.lt_min]
  constructor
  · rintro ⟨⟨hlt, -⟩, hexempt⟩
    exact ⟨Nat.zero_lt_of_lt hlt, hlt, hexempt⟩
  · rintro ⟨-, hlt, hexempt⟩
    exact ⟨⟨hlt, hmax⟩, hexempt⟩

theorem mem_illegal_ofList (legal : Option SetCodes) :
    n ∈ v.illegal (combined (.ofList main) (side.map .ofList)) legal ↔
      n ∈ (cardsIn (combinedEntries main side)).filter fun n =>
        !v.printings.isLegal n (legal.getD v.allSets) := by
  rw [illegal, List.mem_filter, List.mem_filter, mem_names_combined_ofList]
  rfl

/-- Two lists of violations with the same cards have the same violations. -/
theorem mem_map_congr {f : CardName → Violation} {l l' : List CardName} (h : ∀ n, n ∈ l ↔ n ∈ l') (w : Violation) :
    w ∈ l.map f ↔ w ∈ l'.map f := by
  rw [List.mem_map, List.mem_map]
  exact exists_congr fun n => and_congr_left fun _ => h n

/-- **Counts that stop do not change a verdict.**  A format with limits below the largest count finds in a main deck
and a sideboard, or in a main deck alone, exactly the violations that it would find if the copies of every card and of
all cards were counted without end; so the deck is valid either way or neither way.  A total of at most `2 ^ 32` cards
is below `2 ^ 64`. -/
theorem mem_violations_iff_mem_exactViolations (v : Verifier) (h : v.rules.BelowMaxCount)
    (main : List (CardName × ℕ)) (side : Option (List (CardName × ℕ))) (legal : Option SetCodes) :
    (∀ w, w ∈ (v.verify (.ofList main) (side.map .ofList) legal).violations ↔
      w ∈ v.exactViolations main side legal) ∧
    ((v.verify (.ofList main) (side.map .ofList) legal).isValid = true ↔ v.exactViolations main side legal = []) ∧
    ∀ l ∈ main :: side.toList, (Decklist.ofList l).size ≤ 2 ^ 32 → (Decklist.ofList l).total < 2 ^ 64 := by
  have hmem : ∀ w, w ∈ v.violations (.ofList main) (side.map .ofList) legal ↔
      w ∈ v.exactViolations main side legal := by
    intro w
    rw [violations, sizeViolations_ofList h, FormatRules.copyLimitViolations_eq, legalityViolations_eq,
      exactViolations]
    simp only [List.mem_append, mem_map_congr (fun _ => mem_overLimit_ofList h),
      mem_map_congr (fun _ => mem_illegal_ofList legal)]
  refine ⟨fun w => ?_, ?_, fun l _ hsize => Decklist.total_lt_two_pow hsize⟩
  · rw [verify, Verdict.violations_ofViolations, hmem]
  · rw [verify, Verdict.isValid_ofViolations, List.isEmpty_iff, List.eq_nil_iff_forall_not_mem,
      List.eq_nil_iff_forall_not_mem]
    exact forall_congr' fun w => not_congr (hmem w)

/-- No card is legal, and the limits for decks and sideboards are the largest ones that a total can be held against. -/
def strict : Verifier where
  printings := ∅
  allSets := ∅
  rules := { maxDeckSize := some (maxCount - 1), maxSideboardSize := maxCount - 1 }

/-- Copies of one card that stop at the largest count, and some of another card. -/
def overfull : List (CardName × ℕ) := [(⟨"Dispel"⟩, 3), (⟨"Island"⟩, maxCount), (⟨"Island"⟩, 5)]

/-- Copies of a card that stop at the largest count when the main deck is added. -/
def brimful : List (CardName × ℕ) := [(⟨"Dispel"⟩, maxCount - 1)]

theorem mem_violations_iff_mem_exactViolations_overfull :
    strict.rules.BelowMaxCount ∧
      strict.exactViolations overfull (some brimful) none =
        [.deckTooLarge 4294967294, .tooManyCopies ⟨"Dispel"⟩ 4, .notLegal ⟨"Dispel"⟩, .notLegal ⟨"Island"⟩] ∧
      (∀ w, w ∈ (strict.verify (.ofList overfull) (some (.ofList brimful)) none).violations ↔
        w ∈ strict.exactViolations overfull (some brimful) none) ∧
      (Decklist.ofList overfull).total < 2 ^ 64 := by
  have hrules : strict.rules.BelowMaxCount :=
    ⟨by decide, by decide, fun max hmax => Option.some.inj hmax ▸ by decide, by decide, by decide⟩
  obtain ⟨hmem, -, htotal⟩ := mem_violations_iff_mem_exactViolations strict hrules overfull (some brimful) none
  exact ⟨hrules, by decide +kernel, hmem, htotal overfull List.mem_cons_self (by decide +kernel)⟩

end Verifier

end DeckLegality
