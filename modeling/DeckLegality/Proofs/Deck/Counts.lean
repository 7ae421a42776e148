import DeckLegality.Decklist
import Mathlib.Data.List.Nodup

/-!
# What a decklist holds

A decklist comes about by additions, one after the other.  The two theorems about `Decklist.addAll` say what many
additions amount to, in whatever order they name their cards: `count_addAll` for the number of copies of each card
and `names_addAll` for the order of the cards.  Merging two decklists is a special case.

* `count_addAll`, `names_addAll`: the effect of a list of additions.
* `count_ofList`, `names_ofList`: the same for additions to nothing.
* `mem_names_iff`: a card is listed if and only if there is a copy of it.
* `count_merged`, `names_merged`: the effect of merging.
-/

namespace DeckLegality

open Text (maxCount)

/-- Copies that are added in two steps are added in one. -/
theorem addCopies_addCopies (a b c : ℕ) : addCopies (addCopies a b) c = addCopies a (b + c) := by
  unfold addCopies
  omega

theorem addCopies_zero {a : ℕ} (h : a ≤ maxCount) : addCopies a 0 = a := by
  unfold addCopies
  omega

theorem addCopies_le (a b : ℕ) : addCopies a b ≤ a + b := Nat.min_le_left ..

theorem addCopies_eq_add_iff {a b : ℕ} : addCopies a b = a + b ↔ a + b ≤ maxCount := by
  unfold addCopies
  omega

/-- The copies of the card `n` in a list of entries, which may name the card more than once. -/
def copiesIn (n : CardName) : List (CardName × ℕ) → ℕ
  | [] => 0
  | e :: l => if e.1 = n then e.2 + copiesIn n l else copiesIn n l

theorem copiesIn_eq_zero {n : CardName} {l : List (CardName × ℕ)} (h : n ∉ l.map (·.1)) :
    copiesIn n l = 0 := by
  induction l with
  | nil => rfl
  | cons e l ih =>
    rw [List.map_cons, List.mem_cons, not_or] at h
    rw [copiesIn, if_neg (Ne.symm h.1), ih h.2]

/-- A list that names no card twice has the copies that are looked up in it. -/
theorem copiesIn_eq_lookup {l : List (CardName × ℕ)} (h : (l.map (·.1)).Nodup) (n : CardName) :
    copiesIn n l = (FirstSeen.lookup n l).getD 0 := by
  induction l with
  | nil => rfl
  | cons e l ih =>
    rw [List.map_cons, List.nodup_cons] at h
    rw [copiesIn, FirstSeen.lookup_cons]
    split
    · next he =>
      rw [he] at h
      rw [copiesIn_eq_zero h.1, Option.getD_some, Nat.add_zero]
    · exact ih h.2

theorem copiesIn_append (n : CardName) (l l' : List (CardName × ℕ)) :
    copiesIn n (l ++ l') = copiesIn n l + copiesIn n l' := by
  induction l with
  | nil => exact (Nat.zero_add _).symm
  | cons e l ih =>
    rw [List.cons_append, copiesIn, copiesIn, ih]
    split
    · exact (Nat.add_assoc ..).symm
    · rfl

/-- The order of the entries does not matter. -/
theorem copiesIn_perm {l l' : List (CardName × ℕ)} (h : l.Perm l') (n : CardName) : copiesIn n l = copiesIn n l' := by
  induction h with
  | nil => rfl
  | cons e _ ih => rw [copiesIn, copiesIn, ih]
  | swap e e' l =>
    simp only [copiesIn]
    split <;> split <;> omega
  | trans _ _ ih ih' => exact ih.trans ih'

/-- The cards that a list of entries has copies of, each where it has some for the first time. -/
def cardsIn (l : List (CardName × ℕ)) : List CardName := ((l.filter (0 < ·.2)).map (·.1)).eraseDups

/-! ## First occurrences -/

section FirstOccurrences

variable {α : Type} [DecidableEq α]

theorem eraseDups_of_nodup {l : List α} (h : l.Nodup) : l.eraseDups = l := by
  induction l with
  | nil => rfl
  | cons a l ih =>
    rw [List.nodup_cons] at h
    have hkeep : (l.filter fun b => !b == a) = l := by
      refine List.filter_eq_self.mpr fun b hb => ?_
      rw [Bool.not_eq_true', beq_eq_false_iff_ne]
      rintro rfl
      exact h.1 hb
    rw [List.eraseDups_cons, hkeep, ih h.2]

/-- An element that occurred before does not count. -/
theorem eraseDups_append_cons_of_mem {a : α} {l r : List α} (h : a ∈ l) :
    (l ++ a :: r).eraseDups = (l ++ r).eraseDups := by
  have hcontains : l.contains a = true := List.contains_iff_mem.mpr h
  rw [List.eraseDups_append, List.eraseDups_append, List.cons_removeAll, hcontains]
  rfl

end FirstOccurrences

namespace Decklist

theorem nodup_names (d : Decklist) : d.names.Nodup := d.nodup

theorem count_of_mem {d : Decklist} {n : CardName} {k : ℕ} (h : (n, k) ∈ d.entries) : d.count n = k := by
  rw [count_eq_lookup]
  obtain ⟨c, hc⟩ : ∃ c, FirstSeen.lookup n d.entries = some c := by
    rw [← Option.ne_none_iff_exists']
    intro hnone
    exact FirstSeen.lookup_eq_none_iff.mp hnone (List.mem_map_of_mem h)
  have heq : (n, c) = (n, k) :=
    List.inj_on_of_nodup_map d.nodup (FirstSeen.mem_of_lookup_eq_some hc) h rfl
  rw [hc, Option.getD_some]
  exact (Prod.mk.inj heq).2

theorem mem_names_iff_exists {d : Decklist} {n : CardName} : n ∈ d.names ↔ ∃ k, (n, k) ∈ d.entries := by
  rw [names, List.mem_map]
  constructor
  · rintro ⟨e, he, rfl⟩
    exact ⟨e.2, he⟩
  · rintro ⟨k, he⟩
    exact ⟨(n, k), he, rfl⟩

/-- A card is listed if and only if there is a copy of it. -/
theorem mem_names_iff {d : Decklist} {n : CardName} : n ∈ d.names ↔ 0 < d.count n := by
  constructor
  · rw [mem_names_iff_exists]
    rintro ⟨k, he⟩
    rw [count_of_mem he]
    exact (d.counts _ he).1
  · intro hpos
    by_contra hn
    rw [count_eq_lookup, FirstSeen.lookup_eq_none_iff.mpr hn] at hpos
    exact Nat.lt_irrefl 0 hpos

theorem count_eq_zero_iff {d : Decklist} {n : CardName} : d.count n = 0 ↔ n ∉ d.names := by
  rw [mem_names_iff, Nat.pos_iff_ne_zero, not_not]

theorem copiesIn_entries (d : Decklist) (n : CardName) : copiesIn n d.entries = d.count n := by
  rw [copiesIn_eq_lookup d.nodup, count_eq_lookup]

/-! ## Many additions -/

theorem names_add (d : Decklist) (n : CardName) (k : ℕ) :
    (d.add n k).names = if 0 < k ∧ n ∉ d.names then d.names ++ [n] else d.names := by
  rcases Nat.eq_zero_or_pos k with rfl | hk
  · exact (if_neg fun h => Nat.lt_irrefl 0 h.1).symm
  · rw [names, entries_add d n hk, FirstSeen.map_fst_upsert, ← names]
    by_cases hn : n ∈ d.names
    · rw [if_pos hn, if_neg fun h => h.2 hn]
    · rw [if_neg hn, if_pos ⟨hk, hn⟩]

/-- After some additions there are as many copies of a card as there were before and were added together, unless
that is more than a count can be. -/
theorem count_addAll (d : Decklist) (l : List (CardName × ℕ)) (n : CardName) :
    (d.addAll l).count n = addCopies (d.count n) (copiesIn n l) := by
  induction l generalizing d with
  | nil => exact (addCopies_zero (d.count_le n)).symm
  | cons e l ih =>
    show ((d.add e.1 e.2).addAll l).count n = addCopies (d.count n) (copiesIn n (e :: l))
    rw [ih, count_add, copiesIn]
    by_cases he : e.1 = n
    · rw [if_pos he.symm, if_pos he, addCopies_addCopies]
    · rw [if_neg (Ne.symm he), if_neg he]

/-- After some additions the cards are in the order in which they first came in; adding no copy of a card does not
bring it in. -/
theorem names_addAll (d : Decklist) (l : List (CardName × ℕ)) :
    (d.addAll l).names = (d.names ++ (l.filter (0 < ·.2)).map (·.1)).eraseDups := by
  induction l generalizing d with
  | nil =>
    show d.names = (d.names ++ []).eraseDups
    rw [List.append_nil, eraseDups_of_nodup d.nodup_names]
  | cons e l ih =>
    show ((d.add e.1 e.2).addAll l).names = _
    rw [ih, names_add]
    by_cases hpos : 0 < e.2
    · rw [List.filter_cons, if_pos (decide_eq_true hpos), List.map_cons]
      by_cases hn : e.1 ∈ d.names
      · rw [if_neg fun h => h.2 hn, eraseDups_append_cons_of_mem hn]
      · rw [if_pos ⟨hpos, hn⟩, List.append_assoc]
        rfl
    · rw [if_neg fun h => hpos h.1, List.filter_cons, if_neg (by rwa [decide_eq_true_eq])]

/-! ## The decklist of a list of entries -/

theorem count_ofList (l : List (CardName × ℕ)) (n : CardName) :
    (ofList l).count n = min (copiesIn n l) maxCount := by
  rw [ofList, count_addAll, count_empty, addCopies, Nat.zero_add]

theorem names_ofList (l : List (CardName × ℕ)) : (ofList l).names = cardsIn l := names_addAll empty l

/-! ## Merging -/

theorem count_merged (d e : Decklist) (n : CardName) :
    (d.merged e).count n = addCopies (d.count n) (e.count n) := by
  rw [merged, count_addAll, copiesIn_entries]

theorem names_merged (d e : Decklist) : (d.merged e).names = (d.names ++ e.names).eraseDups := by
  have hall : e.entries.filter (0 < ·.2) = e.entries :=
    List.filter_eq_self.mpr fun x hx => decide_eq_true (e.counts x hx).1
  rw [merged, names_addAll, hall]
  rfl

theorem mem_names_merged {d e : Decklist} {n : CardName} :
    n ∈ (d.merged e).names ↔ n ∈ d.names ∨ n ∈ e.names := by
  rw [names_merged, List.mem_eraseDups, List.mem_append]

end Decklist

theorem mem_cardsIn {n : CardName} {l : List (CardName × ℕ)} : n ∈ cardsIn l ↔ 0 < copiesIn n l := by
  rw [← Decklist.names_ofList, Decklist.mem_names_iff, Decklist.count_ofList, Nat.lt_min]
  exact and_iff_left (by decide)

end DeckLegality
