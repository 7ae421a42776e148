import DeckLegality.Proofs.Deck.Totals
import Mathlib.Algebra.BigOperators.Group.List.Basic
import Mathlib.Algebra.Order.BigOperators.Group.Finset
import Mathlib.Data.List.Perm.Subperm

/-!
# Decklists as multisets

Two decklists are equal for those who only count copies if they have the same copies of every card, in whatever order.
`Decklist.sameCopies` compares their sizes and looks up the cards of the first one in the second.  That is enough: no
card is listed without a copy, so the cards of the first decklist are among those of the second, and there are no more of
those.

Merging is the sum of multisets, with counts that stop.  It keeps the order in which cards come in, so it is
commutative only for those who count; but it is associative as it stands, since a count that has stopped twice is the
same as one that has stopped once.

* `sameCopies_iff`, `sameCopies_iff_perm`: what `sameCopies` decides.
* `merged_assoc`, `empty_merged`, `merged_empty`: the laws that hold in order.
* `total_merged_le`, `total_merged_eq_iff`: the total of a sum.
-/

namespace DeckLegality

open Text (maxCount)

namespace Decklist

variable {d d' e e' : Decklist}

/-! ## The same copies -/

/-- Decklists with the same counts list the same cards. -/
theorem perm_names (h : ∀ n, d.count n = e.count n) : d.names.Perm e.names := by
  refine (List.perm_ext_iff_of_nodup d.nodup_names e.nodup_names).mpr fun n => ?_
  rw [mem_names_iff, mem_names_iff, h]

/-- If all cards of one decklist are in another one that lists no more of them, then both list the same cards. -/
theorem perm_names_of_size_eq (hsize : d.size = e.size) (h : ∀ n ∈ d.names, n ∈ e.names) : d.names.Perm e.names := by
  refine (List.subperm_of_subset d.nodup_names h).perm_of_length_le ?_
  rw [names, names, List.length_map, List.length_map]
  exact hsize.ge

theorem all_entries_iff :
    (d.entries.all fun x => e.count x.1 = x.2) = true ↔ ∀ n ∈ d.names, e.count n = d.count n := by
  rw [List.all_eq_true, names, List.forall_mem_map]
  refine forall₂_congr fun x hx => ?_
  rw [decide_eq_true_eq, count_of_mem hx]

theorem sameCopies_iff : d.sameCopies e = true ↔ ∀ n, d.count n = e.count n := by
  rw [sameCopies, Bool.and_eq_true, decide_eq_true_eq, all_entries_iff]
  constructor
  · rintro ⟨hsize, hcount⟩ n
    have hperm : d.names.Perm e.names := perm_names_of_size_eq hsize fun n hn => by
      rw [mem_names_iff, hcount n hn]
      exact mem_names_iff.mp hn
    by_cases hn : n ∈ d.names
    · exact (hcount n hn).symm
    · rw [count_eq_zero_iff.mpr hn, count_eq_zero_iff.mpr (hperm.mem_iff.not.mp hn)]
  · intro hcount
    have hlength := (perm_names hcount).length_eq
    rw [names, names, List.length_map, List.length_map] at hlength
    exact ⟨hlength, fun n _ => (hcount n).symm⟩

/-- The same copies are the same entries in some order. -/
theorem sameCopies_iff_perm : d.sameCopies e = true ↔ d.entries.Perm e.entries := by
  rw [sameCopies_iff]
  constructor
  · intro hcount
    have hentries : d.entries = d.names.map fun n => (n, e.count n) := by
      rw [entries_eq_map]
      exact List.map_congr_left fun n _ => by rw [hcount]
    rw [hentries, e.entries_eq_map]
    exact (perm_names hcount).map _
  · intro hperm n
    rw [← copiesIn_entries, ← copiesIn_entries, copiesIn_perm hperm]

theorem sameCopies_ofList_of_perm {l l' : List (CardName × ℕ)} (h : l.Perm l') :
    (ofList l).sameCopies (ofList l') = true := by
  rw [sameCopies_iff]
  intro n
  rw [count_ofList, count_ofList, copiesIn_perm h]

/-- **Decklists are the same if their counts are.**  The comparison, which only looks up the cards of the first
decklist, decides whether both have as many copies of every card.  So it is an equivalence, and the order in which cards
came in makes no difference to it. -/
theorem sameCopies_extensional :
    (∀ d e : Decklist, d.sameCopies e = true ↔ ∀ n, d.count n = e.count n) ∧
    (Equivalence fun d e : Decklist => d.sameCopies e = true) ∧
    (∀ d e : Decklist, d.sameCopies e = true ↔ d.entries.Perm e.entries) ∧
    ∀ l l' : List (CardName × ℕ), l.Perm l' → (ofList l).sameCopies (ofList l') = true := by
  refine ⟨fun _ _ => sameCopies_iff, ⟨fun d => ?_, fun h => ?_, fun h h' => ?_⟩, fun _ _ => sameCopies_iff_perm,
    fun _ _ => sameCopies_ofList_of_perm⟩
  · exact sameCopies_iff.mpr fun _ => rfl
  · exact sameCopies_iff.mpr fun n => (sameCopies_iff.mp h n).symm
  · exact sameCopies_iff.mpr fun n => (sameCopies_iff.mp h n).trans (sameCopies_iff.mp h' n)

/-- Copies of a card that come in together and apart, before and after another card. -/
theorem sameCopies_extensional_shuffled :
    [(CardName.mk "Duress", 1), (⟨"Swamp"⟩, 2), (⟨"Duress"⟩, 3)].Perm
      [(⟨"Swamp"⟩, 2), (⟨"Duress"⟩, 3), (⟨"Duress"⟩, 1)] ∧
    (ofList [(⟨"Duress"⟩, 1), (⟨"Swamp"⟩, 2), (⟨"Duress"⟩, 3)]).sameCopies
      (ofList [(⟨"Swamp"⟩, 2), (⟨"Duress"⟩, 3), (⟨"Duress"⟩, 1)]) = true := by
  have hperm : [(CardName.mk "Duress", 1), (⟨"Swamp"⟩, 2), (⟨"Duress"⟩, 3)].Perm
      [(⟨"Swamp"⟩, 2), (⟨"Duress"⟩, 3), (⟨"Duress"⟩, 1)] := by decide
  exact ⟨hperm, sameCopies_extensional.2.2.2 _ _ hperm⟩

/-! ## The laws of merging -/

theorem sameCopies_merged_comm (d e : Decklist) : (d.merged e).sameCopies (e.merged d) = true := by
  rw [sameCopies_iff]
  intro n
  rw [count_merged, count_merged, addCopies, addCopies, Nat.add_comm]

theorem sameCopies_merged (hd : d.sameCopies d' = true) (he : e.sameCopies e' = true) :
    (d.merged e).sameCopies (d'.merged e') = true := by
  rw [sameCopies_iff] at hd he ⊢
  intro n
  rw [count_merged, count_merged, hd, he]

theorem empty_merged (d : Decklist) : empty.merged d = d := d.ofList_entries

theorem merged_empty (d : Decklist) : d.merged empty = d := rfl

/-- Merging one decklist after the other is merging what they are together. -/
theorem merged_assoc (d e f : Decklist) : (d.merged e).merged f = d.merged (e.merged f) := by
  have hsum : e.merged f = ofList (e.entries ++ f.entries) := by
    rw [ofList_append, ofList_entries, merged]
  rw [hsum, merged_ofList, addAll_append]
  rfl

/-! ## The total of a sum -/

/-- The total adds up the counts of any cards among which all those of the decklist are. -/
theorem total_eq_sum_of_subset {s : Finset CardName} (h : ∀ n ∈ d.names, n ∈ s) : d.total = ∑ n ∈ s, d.count n := by
  rw [total_eq_sum, ← List.sum_toFinset d.count d.nodup_names]
  refine Finset.sum_subset (fun n hn => h n (List.mem_toFinset.mp hn)) fun n _ hn => ?_
  exact count_eq_zero_iff.mpr fun hmem => hn (List.mem_toFinset.mpr hmem)

/-- The three totals, each added up over the cards of both decklists. -/
theorem exists_total_eq_sum (d e : Decklist) :
    ∃ s : Finset CardName, (∀ n, n ∈ s ↔ n ∈ d.names ∨ n ∈ e.names) ∧
      (d.merged e).total = ∑ n ∈ s, addCopies (d.count n) (e.count n) ∧
      d.total + e.total = ∑ n ∈ s, (d.count n + e.count n) := by
  have hmem : ∀ n, n ∈ d.names.toFinset ∪ e.names.toFinset ↔ n ∈ d.names ∨ n ∈ e.names := fun n => by
    rw [Finset.mem_union, List.mem_toFinset, List.mem_toFinset]
  refine ⟨d.names.toFinset ∪ e.names.toFinset, hmem, ?_, ?_⟩
  · rw [total_eq_sum_of_subset fun n hn => (hmem n).mpr (mem_names_merged.mp hn)]
    exact Finset.sum_congr rfl fun n _ => count_merged d e n
  · rw [total_eq_sum_of_subset fun n hn => (hmem n).mpr (.inl hn),
      total_eq_sum_of_subset fun n hn => (hmem n).mpr (.inr hn), Finset.sum_add_distrib]

theorem total_merged_le (d e : Decklist) : (d.merged e).total ≤ d.total + e.total := by
  obtain ⟨s, -, hmerged, hsum⟩ := exists_total_eq_sum d e
  rw [hmerged, hsum]
  exact Finset.sum_le_sum fun n _ => addCopies_le ..

/-- No copy is lost if and only if no count stops. -/
theorem total_merged_eq_iff {d e : Decklist} :
    (d.merged e).total = d.total + e.total ↔ ∀ n, d.count n + e.count n ≤ maxCount := by
  obtain ⟨s, hs, hmerged, hsum⟩ := exists_total_eq_sum d e
  rw [hmerged, hsum, Finset.sum_eq_sum_iff_of_le fun n _ => addCopies_le ..]
  constructor
  · intro h n
    by_cases hn : n ∈ s
    · exact addCopies_eq_add_iff.mp (h n hn)
    · -- a card that is in neither decklist has no copies at all
      rw [hs, not_or] at hn
      rw [count_eq_zero_iff.mpr hn.1, count_eq_zero_iff.mpr hn.2]
      exact Nat.zero_le _
  · exact fun h n _ => addCopies_eq_add_iff.mpr (h n)

/-- **Merging makes decklists a commutative monoid.**  For those who only count copies, merging is commutative and does
not tell decklists apart that are the same.  It is associative, and the empty decklist changes nothing on either side, as
far as the entries and their order.  The total of a sum is at most the sum of the totals, and it falls short of it if and
only if some card has more copies in both together than a count can be. -/
theorem merged_comm_assoc_total_le (d e f : Decklist) :
    (d.merged e).sameCopies (e.merged d) = true ∧
    (∀ d' e' : Decklist, d.sameCopies d' = true → e.sameCopies e' = true →
      (d.merged e).sameCopies (d'.merged e') = true) ∧
    ((d.merged e).merged f).entries = (d.merged (e.merged f)).entries ∧
    (empty.merged d).entries = d.entries ∧ (d.merged empty).entries = d.entries ∧
    (d.merged e).total ≤ d.total + e.total ∧
    ((d.merged e).total = d.total + e.total ↔ ∀ n, d.count n + e.count n ≤ maxCount) :=
  ⟨sameCopies_merged_comm d e, fun _ _ => sameCopies_merged, congrArg (·.entries) (merged_assoc d e f),
    congrArg (·.entries) d.empty_merged, congrArg (·.entries) d.merged_empty, total_merged_le d e, total_merged_eq_iff⟩

/-- A decklist with so many islands that merging it with itself loses some. -/
def islands : Decklist := ofList [(⟨"Island"⟩, 4000000000), (⟨"Swamp"⟩, 1)]

theorem merged_comm_assoc_total_le_islands :
    islands.sameCopies (ofList [(⟨"Swamp"⟩, 1), (⟨"Island"⟩, 4000000000)]) = true ∧
    (islands.merged islands).sameCopies ((ofList [(⟨"Swamp"⟩, 1), (⟨"Island"⟩, 4000000000)]).merged islands) = true ∧
    (islands.merged islands).total ≠ islands.total + islands.total := by
  obtain ⟨-, hcongr, -, -, -, -, htotal⟩ := merged_comm_assoc_total_le islands islands islands
  have hsame : islands.sameCopies (ofList [(⟨"Swamp"⟩, 1), (⟨"Island"⟩, 4000000000)]) = true := by decide +kernel
  have hself : islands.sameCopies islands = true := by decide +kernel
  have hlost : ¬ islands.count ⟨"Island"⟩ + islands.count ⟨"Island"⟩ ≤ maxCount := by decide +kernel
  exact ⟨hsame, hcongr _ _ hsame hself, fun h => hlost (htotal.mp h ⟨"Island"⟩)⟩

end Decklist

end DeckLegality
