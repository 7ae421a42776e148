import DeckLegality.Proofs.Deck.Counts
import Mathlib.Data.List.Pairwise

/-!
# The cards by falling count

`Decklist.mostCommon` sorts the entries of a decklist by falling count.  The sort is stable, so entries with equal
counts keep the order in which their cards came in.

* `filter_mostCommon_eq`: the entries with one count are in the order of the list.
* `pairwise_mostCommon`: an earlier entry has more copies, or as many and its card came in before.
* `takeWhile_mostCommon`: a scan that stops at the first entry with at most `k` copies misses no entry with more.
-/

namespace DeckLegality

section Lists

variable {α : Type}

/-- Where a property passes on from every element to all earlier ones, a scan that stops at the first element
without it finds all elements that have it. -/
theorem takeWhile_eq_filter {p : α → Bool} {l : List α} (h : l.Pairwise fun a b => p b = true → p a = true) :
    l.takeWhile p = l.filter p := by
  induction l with
  | nil => rfl
  | cons a l ih =>
    rw [List.pairwise_cons] at h
    by_cases ha : p a = true
    · rw [List.takeWhile_cons_of_pos ha, List.filter_cons_of_pos ha, ih h.2]
    · have hnone : l.filter p = [] := List.filter_eq_nil_iff.mpr fun b hb hpb => ha (h.1 b hb hpb)
      rw [List.takeWhile_cons_of_neg ha, List.filter_cons_of_neg ha, hnone]

variable [DecidableEq α]

/-- In a list without repetitions the positions grow. -/
theorem pairwise_idxOf {l : List α} (h : l.Nodup) : l.Pairwise fun a b => l.idxOf a < l.idxOf b := by
  rw [List.pairwise_iff_getElem]
  intro i j hi hj hij
  rwa [h.idxOf_getElem i hi, h.idxOf_getElem j hj]

end Lists

namespace Decklist

variable (d : Decklist)

/-! ## The order of the sort -/

theorem perm_mostCommon : d.mostCommon.Perm d.entries := List.mergeSort_perm ..

theorem mem_mostCommon {e : CardName × ℕ} : e ∈ d.mostCommon ↔ e ∈ d.entries := d.perm_mostCommon.mem_iff

theorem atMost_trans (a b c : CardName × ℕ) (hab : decide (b.2 ≤ a.2) = true) (hbc : decide (c.2 ≤ b.2) = true) :
    decide (c.2 ≤ a.2) = true := by
  rw [decide_eq_true_eq] at hab hbc ⊢
  omega

theorem atMost_total (a b : CardName × ℕ) : (decide (b.2 ≤ a.2) || decide (a.2 ≤ b.2)) = true := by
  rw [Bool.or_eq_true, decide_eq_true_eq, decide_eq_true_eq]
  omega

/-- The counts fall. -/
theorem pairwise_le_mostCommon : d.mostCommon.Pairwise fun a b => b.2 ≤ a.2 :=
  (List.pairwise_mergeSort atMost_trans atMost_total d.entries).imp of_decide_eq_true

/-- The entries with `k` copies are sorted already, so they stay as they are. -/
theorem filter_mostCommon_eq (k : ℕ) :
    d.mostCommon.filter (·.2 = k) = d.entries.filter (·.2 = k) := by
  have hsorted : (d.entries.filter (·.2 = k)).Pairwise fun a b => decide (b.2 ≤ a.2) = true := by
    refine List.pairwise_of_forall_mem_list fun a ha b hb => ?_
    have hak : a.2 = k := of_decide_eq_true (List.mem_filter.mp ha).2
    have hbk : b.2 = k := of_decide_eq_true (List.mem_filter.mp hb).2
    exact decide_eq_true (by omega)
  have hsub : (d.entries.filter (·.2 = k)).Sublist d.mostCommon :=
    List.sublist_mergeSort atMost_trans atMost_total hsorted List.filter_sublist
  have hsub' := hsub.filter (·.2 = k)
  simp only [List.filter_filter, Bool.and_self] at hsub'
  exact (hsub'.eq_of_length (d.perm_mostCommon.filter _).length_eq.symm).symm

/-- The card of an earlier entry has more copies, or it has as many and came in before. -/
theorem pairwise_mostCommon : d.mostCommon.Pairwise fun a b =>
    b.2 < a.2 ∨ a.2 = b.2 ∧ d.names.idxOf a.1 < d.names.idxOf b.1 := by
  rw [List.pairwise_iff_forall_sublist]
  intro a b hab
  have hle : b.2 ≤ a.2 := d.pairwise_le_mostCommon.forall_sublist hab
  rcases Nat.lt_or_eq_of_le hle with hlt | heq
  · exact .inl hlt
  · refine .inr ⟨heq.symm, ?_⟩
    -- both entries stand in the part with this count, whose order is that of the list
    have hpart : [a, b].Sublist (d.mostCommon.filter (·.2 = a.2)) := by
      have hfilter := hab.filter (·.2 = a.2)
      rwa [List.filter_eq_self.mpr] at hfilter
      intro e he
      rcases List.mem_pair.mp he with rfl | rfl
      · exact decide_eq_true rfl
      · exact decide_eq_true heq
    rw [filter_mostCommon_eq] at hpart
    have hpos := pairwise_idxOf d.nodup_names
    rw [names, List.pairwise_map] at hpos
    exact hpos.forall_sublist (hpart.trans List.filter_sublist)

/-- A scan that stops at the first entry with at most `k` copies misses no entry with more. -/
theorem takeWhile_mostCommon (k : ℕ) :
    d.mostCommon.takeWhile (k < ·.2) = d.mostCommon.filter (k < ·.2) := by
  refine takeWhile_eq_filter (d.pairwise_le_mostCommon.imp fun {a b} hle hb => ?_)
  rw [decide_eq_true_eq] at hb ⊢
  omega

end Decklist

end DeckLegality
