import DeckLegality.Proofs.Deck.Counts

/-!
# Building decklists in parts

A decklist is known by its cards in their order and by their counts (`Decklist.ext_names_count`).  So it does not matter
whether entries are added one by one or are made into a decklist of their own first, which is then merged: counts stop
at the same value, and a card stands where it is seen first.

* `Decklist.ofList_entries`: a decklist is what its entries amount to.
* `Decklist.merged_ofList`: merging the decklist of some entries is adding the entries.
-/

namespace DeckLegality

open Text (maxCount)

/-! ## First occurrences in two parts -/

section FirstOccurrences

variable {α : Type} [DecidableEq α]

/-- Further occurrences of an element may be left out. -/
theorem eraseDups_append_filter {a : α} {l : List α} (h : a ∈ l) (r : List α) :
    (l ++ r.filter fun b => !b == a).eraseDups = (l ++ r).eraseDups := by
  induction r generalizing l with
  | nil => rfl
  | cons b r ih =>
    by_cases hb : b = a
    · subst hb
      rw [List.filter_cons_of_neg (by simp), ih h, eraseDups_append_cons_of_mem h]
    · rw [List.filter_cons_of_pos (by simp [hb]), List.append_cons, ih (List.mem_append_left _ h), ← List.append_cons]

/-- Repetitions in the second part may be left out before those in both parts are. -/
theorem eraseDups_append_eraseDups : ∀ l r : List α, (l ++ r.eraseDups).eraseDups = (l ++ r).eraseDups
  | _, [] => rfl
  | l, a :: r => by
    have ha : a ∈ l ++ [a] := List.mem_append_right l List.mem_cons_self
    rw [List.eraseDups_cons, List.append_cons, eraseDups_append_eraseDups (l ++ [a]), eraseDups_append_filter ha,
      ← List.append_cons]
termination_by _ r => r.length
decreasing_by
  rw [List.length_cons]
  exact Nat.lt_succ_of_le (List.length_filter_le _ r)

end FirstOccurrences

namespace Decklist

variable {d e : Decklist}

/-! ## Decklists by their entries -/

/-- Adding the entries of a decklist to another one that has none of their cards puts them at its end. -/
theorem entries_addAll {d : Decklist} {l : List (CardName × ℕ)} (hnodup : ((d.entries ++ l).map (·.1)).Nodup)
    (hcounts : ∀ e ∈ l, 1 ≤ e.2 ∧ e.2 ≤ maxCount) : (d.addAll l).entries = d.entries ++ l := by
  induction l generalizing d with
  | nil => exact (List.append_nil _).symm
  | cons e l ih =>
    obtain ⟨⟨hpos, hle⟩, hcounts⟩ := List.forall_mem_cons.mp hcounts
    have hentries : (d.add e.1 e.2).entries = d.entries ++ [e] := by
      rw [entries_add d e.1 (Nat.lt_of_succ_le hpos), FirstSeen.upsert_of_notMem (FirstSeen.notMem_of_nodup hnodup),
        Nat.min_eq_left hle]
    show ((d.add e.1 e.2).addAll l).entries = d.entries ++ e :: l
    rw [ih (by rwa [hentries, List.append_assoc]) hcounts, hentries, List.append_assoc, List.singleton_append]

/-- The entries of a decklist, added one by one, give the decklist. -/
theorem ofList_entries (d : Decklist) : ofList d.entries = d :=
  ext_entries (entries_addAll (d := empty) d.nodup d.counts)

/-- The cards and their counts make up the entries. -/
theorem entries_eq_map (d : Decklist) : d.entries = d.names.map fun n => (n, d.count n) := by
  rw [names, List.map_map]
  refine (List.map_id' d.entries).symm.trans (List.map_congr_left fun x hx => ?_)
  rw [Function.comp_apply, count_of_mem hx]

/-- Decklists with the same cards in the same order and with the same counts are equal. -/
theorem ext_names_count (hnames : d.names = e.names) (hcount : ∀ n, d.count n = e.count n) : d = e := by
  refine ext_entries ?_
  rw [entries_eq_map, entries_eq_map, hnames]
  exact List.map_congr_left fun n _ => by rw [hcount]

/-! ## Adding in parts -/

theorem addAll_append (d : Decklist) (l l' : List (CardName × ℕ)) : d.addAll (l ++ l') = (d.addAll l).addAll l' :=
  List.foldl_append

theorem ofList_append (l l' : List (CardName × ℕ)) : ofList (l ++ l') = (ofList l).addAll l' := addAll_append empty l l'

/-- Merging the decklist of some entries is adding the entries. -/
theorem merged_ofList (d : Decklist) (l : List (CardName × ℕ)) : d.merged (ofList l) = d.addAll l := by
  refine ext_names_count ?_ fun n => ?_
  · rw [names_merged, names_ofList, names_addAll, cardsIn, eraseDups_append_eraseDups]
  · rw [count_merged, count_ofList, count_addAll, addCopies, addCopies]
    omega

end Decklist

end DeckLegality
