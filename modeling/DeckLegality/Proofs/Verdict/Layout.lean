import DeckLegality.Proofs.Verdict.Reports
import Mathlib.Logic.Relation

/-!
# How a submission is laid out

The copies of a card may stand in the main deck or in the sideboard, in one entry or in several, and the entries in
any order.  What a verdict reports of a card does not depend on any of this, but on the number of copies in both
together alone; and a card that is reported with some copies is reported with more copies too.

* `Submission.Layout.copiesIn_all_eq`: laying a submission out anew leaves the copies of each card as they are.
* `Verifier.mem_violations_of_count_le`: more copies do not hide a card, and neither does another layout.
-/

namespace DeckLegality

open Text (maxCount)

namespace Submission

/-- The entries of a submission as somebody wrote them down, which may name a card more than once. -/
structure Layout where
  main : List (CardName × ℕ)
  side : List (CardName × ℕ)

namespace Layout

/-- The submission that is written down. -/
def submission (l : Layout) : Submission := ⟨.ofList l.main, .ofList l.side⟩

/-- One step on the way to another layout of the same copies. -/
inductive Step : Layout → Layout → Prop
  /-- The entries of the main deck are put in another order. -/
  | reorderMain {main main' : List (CardName × ℕ)} (side : List (CardName × ℕ)) (h : main.Perm main') :
      Step ⟨main, side⟩ ⟨main', side⟩
  /-- The entries of the sideboard are put in another order. -/
  | reorderSide (main : List (CardName × ℕ)) {side side' : List (CardName × ℕ)} (h : side.Perm side') :
      Step ⟨main, side⟩ ⟨main, side'⟩
  /-- An entry of the main deck is split into two. -/
  | splitMain (n : CardName) (j k : ℕ) (main side : List (CardName × ℕ)) :
      Step ⟨(n, j + k) :: main, side⟩ ⟨(n, j) :: (n, k) :: main, side⟩
  /-- An entry of the sideboard is split into two. -/
  | splitSide (n : CardName) (j k : ℕ) (main side : List (CardName × ℕ)) :
      Step ⟨main, (n, j + k) :: side⟩ ⟨main, (n, j) :: (n, k) :: side⟩
  /-- An entry is moved from the main deck to the sideboard. -/
  | move (e : CardName × ℕ) (main side : List (CardName × ℕ)) : Step ⟨e :: main, side⟩ ⟨main, e :: side⟩

variable {l l' : Layout}

/-- Main deck and sideboard together. -/
def all (l : Layout) : List (CardName × ℕ) := l.main ++ l.side

theorem copiesIn_split (n m : CardName) (j k : ℕ) (r : List (CardName × ℕ)) :
    copiesIn n ((m, j + k) :: r) = copiesIn n ((m, j) :: (m, k) :: r) := by
  simp only [copiesIn]
  split
  · exact Nat.add_assoc ..
  · rfl

/-- One step leaves the copies of each card as they are. -/
theorem Step.copiesIn_all_eq (h : Step l l') (n : CardName) : copiesIn n l.all = copiesIn n l'.all := by
  cases h with
  | reorderMain side hperm => exact copiesIn_perm (hperm.append_right side) n
  | reorderSide main hperm => exact copiesIn_perm (hperm.append_left main) n
  | splitMain m j k main side => exact copiesIn_split n m j k (main ++ side)
  | splitSide m j k main side =>
    simp only [all, copiesIn_append, copiesIn_split]
  | move e main side => exact copiesIn_perm List.perm_middle.symm n

/-- Laying a submission out anew, in any number of steps there and back, leaves the copies of each card as they
are. -/
theorem copiesIn_all_eq (h : Relation.EqvGen Step l l') (n : CardName) : copiesIn n l.all = copiesIn n l'.all := by
  induction h with
  | rel l l' h => exact h.copiesIn_all_eq n
  | refl l => rfl
  | symm l l' _ ih => exact ih.symm
  | trans l l' l'' _ _ ih ih' => exact ih.trans ih'

/-- Both decklists together have the copies that are written down, up to the largest count. -/
theorem count_merged_submission (l : Layout) (n : CardName) :
    l.submission.merged.count n = min (copiesIn n l.all) maxCount := by
  rw [merged, submission, Decklist.count_merged, Decklist.count_ofList, Decklist.count_ofList, all, copiesIn_append,
    addCopies]
  omega

end Layout

/-- The two submissions have layouts that come from each other by moving copies between main deck and sideboard, and
by putting in order, splitting and joining entries in either. -/
def LaidOutAs (s t : Submission) : Prop :=
  ∃ l l' : Layout, l.submission = s ∧ l'.submission = t ∧ Relation.EqvGen Layout.Step l l'

theorem LaidOutAs.count_merged_eq {s t : Submission} (h : s.LaidOutAs t) (n : CardName) :
    s.merged.count n = t.merged.count n := by
  obtain ⟨l, l', rfl, rfl, hsteps⟩ := h
  rw [l.count_merged_submission, l'.count_merged_submission, Layout.copiesIn_all_eq hsteps]

end Submission

namespace Verifier

variable {v : Verifier} {s t : Submission} {legal : Option SetCodes} {n : CardName} {max : ℕ}

theorem tooManyCopies_mem_submission_iff :
    .tooManyCopies n max ∈ (v.verifySubmission s legal).violations ↔
      max = v.rules.maxCards ∧ v.rules.maxCards < s.merged.count n ∧ n ∉ v.rules.exemptions := by
  rw [verifySubmission, tooManyCopies_mem_iff, ← count_combined]
  rfl

theorem notLegal_mem_submission_iff :
    .notLegal n ∈ (v.verifySubmission s legal).violations ↔
      0 < s.merged.count n ∧ ∀ code, code ∉ v.printings.legalPrintings n (v.effective legal) := by
  rw [verifySubmission, notLegal_mem_iff, ← count_combined]
  rfl

/-- More copies of a card do not take back that there are too many. -/
theorem tooManyCopies_mem_of_count_le (hle : s.merged.count n ≤ t.merged.count n)
    (h : .tooManyCopies n max ∈ (v.verifySubmission s legal).violations) :
    .tooManyCopies n max ∈ (v.verifySubmission t legal).violations := by
  obtain ⟨hmax, hlt, hexempt⟩ := tooManyCopies_mem_submission_iff.mp h
  exact tooManyCopies_mem_submission_iff.mpr ⟨hmax, Nat.lt_of_lt_of_le hlt hle, hexempt⟩

/-- More copies of a card do not make it legal. -/
theorem notLegal_mem_of_count_le (hle : s.merged.count n ≤ t.merged.count n)
    (h : .notLegal n ∈ (v.verifySubmission s legal).violations) :
    .notLegal n ∈ (v.verifySubmission t legal).violations := by
  obtain ⟨hpos, hnone⟩ := notLegal_mem_submission_iff.mp h
  exact notLegal_mem_submission_iff.mpr ⟨Nat.lt_of_lt_of_le hpos hle, hnone⟩

/-- **Copies cannot be hidden by how a submission is laid out.**  If one submission has no more copies of any card
than another, main deck and sideboard taken together, then every card that is reported with too many copies, or as
not legal, is so reported for the other one.  So two layouts of the same copies are reported for the same cards. -/
theorem mem_violations_of_count_le (v : Verifier) (legal : Option SetCodes) :
    (∀ s t : Submission, (∀ n, s.merged.count n ≤ t.merged.count n) →
      (∀ n max, .tooManyCopies n max ∈ (v.verifySubmission s legal).violations →
        .tooManyCopies n max ∈ (v.verifySubmission t legal).violations) ∧
      ∀ n, .notLegal n ∈ (v.verifySubmission s legal).violations →
        .notLegal n ∈ (v.verifySubmission t legal).violations) ∧
    ∀ s t : Submission, s.LaidOutAs t →
      (∀ n max, .tooManyCopies n max ∈ (v.verifySubmission s legal).violations ↔
        .tooManyCopies n max ∈ (v.verifySubmission t legal).violations) ∧
      ∀ n, .notLegal n ∈ (v.verifySubmission s legal).violations ↔
        .notLegal n ∈ (v.verifySubmission t legal).violations := by
  refine ⟨fun s t hle => ⟨fun n max => ?_, fun n => ?_⟩, fun s t hlaid => ⟨fun n max => ?_, fun n => ?_⟩⟩
  · exact tooManyCopies_mem_of_count_le (hle n)
  · exact notLegal_mem_of_count_le (hle n)
  · have hcount := hlaid.count_merged_eq n
    exact ⟨tooManyCopies_mem_of_count_le (Nat.le_of_eq hcount),
      tooManyCopies_mem_of_count_le (Nat.le_of_eq hcount.symm)⟩
  · have hcount := hlaid.count_merged_eq n
    exact ⟨notLegal_mem_of_count_le (Nat.le_of_eq hcount), notLegal_mem_of_count_le (Nat.le_of_eq hcount.symm)⟩

/-- No card is known. -/
def unknowing : Verifier := ⟨∅, ∅, {}⟩

open Submission (Layout)

/-- Five copies of a card, some in the main deck and some in the sideboard. -/
def spread : Layout := ⟨[(⟨"Dispel"⟩, 3)], [(⟨"Dispel"⟩, 2)]⟩

/-- The same copies, with one of them moved to the main deck. -/
def gathered : Layout := ⟨[(⟨"Dispel"⟩, 4)], [(⟨"Dispel"⟩, 1)]⟩

/-- More copies of the card, and another card. -/
def enlarged : Layout := ⟨[(⟨"Shock"⟩, 1), (⟨"Dispel"⟩, 6)], []⟩

theorem eqvGen_spread_gathered : Relation.EqvGen Layout.Step spread gathered := by
  have hsplit : Layout.Step spread ⟨[(⟨"Dispel"⟩, 3)], [(⟨"Dispel"⟩, 1), (⟨"Dispel"⟩, 1)]⟩ :=
    .splitSide ⟨"Dispel"⟩ 1 1 _ _
  have hmove : Layout.Step ⟨[(⟨"Dispel"⟩, 1), (⟨"Dispel"⟩, 3)], [(⟨"Dispel"⟩, 1)]⟩
      ⟨[(⟨"Dispel"⟩, 3)], [(⟨"Dispel"⟩, 1), (⟨"Dispel"⟩, 1)]⟩ := .move ..
  have hjoin : Layout.Step gathered ⟨[(⟨"Dispel"⟩, 1), (⟨"Dispel"⟩, 3)], [(⟨"Dispel"⟩, 1)]⟩ :=
    .splitMain ⟨"Dispel"⟩ 1 3 _ _
  exact .trans _ _ _ (.rel _ _ hsplit) (.trans _ _ _ (.symm _ _ (.rel _ _ hmove)) (.symm _ _ (.rel _ _ hjoin)))

theorem count_spread_le_enlarged (n : CardName) :
    spread.submission.merged.count n ≤ enlarged.submission.merged.count n := by
  have hcopies : copiesIn n spread.all ≤ copiesIn n enlarged.all := by
    simp only [Layout.all, spread, enlarged, List.append_nil, List.singleton_append, copiesIn]
    split <;> split <;> omega
  rw [Layout.count_merged_submission, Layout.count_merged_submission]
  omega

theorem mem_violations_of_count_le_spread :
    .tooManyCopies ⟨"Dispel"⟩ 4 ∈ (unknowing.verifySubmission spread.submission none).violations ∧
      .tooManyCopies ⟨"Dispel"⟩ 4 ∈ (unknowing.verifySubmission enlarged.submission none).violations ∧
      .notLegal ⟨"Dispel"⟩ ∈ (unknowing.verifySubmission gathered.submission none).violations := by
  obtain ⟨hmore, hlaid⟩ := mem_violations_of_count_le unknowing none
  have hcopies : .tooManyCopies ⟨"Dispel"⟩ 4 ∈ (unknowing.verifySubmission spread.submission none).violations :=
    tooManyCopies_mem_submission_iff.mpr (by decide +kernel)
  have hlegal : .notLegal ⟨"Dispel"⟩ ∈ (unknowing.verifySubmission spread.submission none).violations :=
    notLegal_mem_submission_iff.mpr ⟨by decide +kernel, fun code => SortedSet.not_mem_empty code⟩
  refine ⟨hcopies, (hmore _ _ count_spread_le_enlarged).1 _ _ hcopies, ?_⟩
  exact ((hlaid _ _ ⟨spread, gathered, rfl, rfl, eqvGen_spread_gathered⟩).2 _).mp hlegal

end Verifier

end DeckLegality
