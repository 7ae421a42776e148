import DeckLegality.FirstSeen

/-!
# Entries and their positions

A `Table` keeps its entries in the order in which their keys came in, and beside them an index, which tells the position
of each key.  What is looked up or changed is found by its position, without going through the entries.  So everything
that changes the entries has to keep the index in step: `Aligned` says what that means and is part of the type, and a
position that the index has is in bounds (`Aligned.lt_length`).

* `Aligned.set`, `Aligned.concat`: the two changes that there are keep the index in step.
* `Table.get?_eq_lookup`, `Table.entries_upsert`: going by positions is the same as going through the entries.
* `Table.ext_entries`: the index adds nothing by which two tables could differ.
-/

namespace DeckLegality.FirstSeen

variable {κ ν : Type}

/-- The index has each key of the entries at its position, and no other keys and positions. -/
def Aligned (entries : List (κ × ν)) (index : κ → Option Nat) : Prop :=
  ∀ k pos, index k = some pos ↔ (entries.map (·.1))[pos]? = some k

namespace Aligned

variable {entries : List (κ × ν)} {index : κ → Option Nat} {k : κ} {pos : Nat}

/-- Without entries there are no positions. -/
theorem nil : Aligned ([] : List (κ × ν)) fun _ => none := fun _ _ => iff_of_false nofun nofun

/-- A position that the index has is in bounds. -/
theorem lt_length (h : Aligned entries index) (hk : index k = some pos) : pos < entries.length := by
  obtain ⟨hlt, -⟩ := List.getElem?_eq_some_iff.1 ((h k pos).1 hk)
  rwa [List.length_map] at hlt

/-- The entry at the position of a key is the one of the key. -/
theorem fst_getElem (h : Aligned entries index) (hk : index k = some pos) (hlt : pos < entries.length) :
    entries[pos].1 = k := by
  obtain ⟨_, heq⟩ := List.getElem?_eq_some_iff.1 ((h k pos).1 hk)
  rwa [List.getElem_map] at heq

/-- A key has no position if and only if there is no entry for it. -/
theorem eq_none_iff (h : Aligned entries index) : index k = none ↔ k ∉ entries.map (·.1) := by
  rw [Option.eq_none_iff_forall_ne_some, List.mem_iff_getElem?, not_exists]
  exact forall_congr' fun pos => not_congr (h k pos)

/-- No key has two entries, since it would have two positions. -/
theorem nodup (h : Aligned entries index) : (entries.map (·.1)).Nodup := by
  refine List.pairwise_iff_getElem.2 fun i j hi hj hlt heq => Nat.ne_of_lt hlt ?_
  have hposi := (h _ i).2 (List.getElem?_eq_getElem hi)
  have hposj := (h _ j).2 (List.getElem?_eq_getElem hj)
  rw [← heq] at hposj
  exact Option.some.inj (hposi.symm.trans hposj)

/-- A new value at a position changes no position. -/
theorem set (h : Aligned entries index) (hlt : pos < entries.length) (v : ν) :
    Aligned (entries.set pos (entries[pos].1, v)) index := by
  have hlt' : pos < (entries.map (·.1)).length := by rwa [List.length_map]
  have hkey : (entries.map (·.1))[pos] = entries[pos].1 := List.getElem_map _
  have hkeys : (entries.set pos (entries[pos].1, v)).map (·.1) = entries.map (·.1) := by
    rw [List.map_set, ← hkey, List.set_getElem_self]
  intro k pos
  rw [hkeys]
  exact h k pos

/-- The entry of a new key goes to the end, and that is its position. -/
theorem concat [DecidableEq κ] (h : Aligned entries index) (hk : index k = none) (v : ν) :
    Aligned (entries ++ [(k, v)]) fun j => if j = k then some entries.length else index j := by
  have hnew : k ∉ entries.map (·.1) := h.eq_none_iff.1 hk
  intro j pos
  show (if j = k then some entries.length else index j) = some pos ↔ _
  rw [List.map_append, List.map_singleton, List.getElem?_append, List.length_map]
  by_cases hpos : pos < entries.length
  · rw [if_pos hpos]
    split
    · next hj =>
      subst hj
      refine iff_of_false (fun e => ?_) fun e => hnew (List.mem_of_getElem? e)
      exact Nat.ne_of_gt hpos (Option.some.inj e)
    · exact h j pos
  · rw [if_neg hpos]
    split
    · next hj =>
      subst hj
      rw [Option.some_inj, List.getElem?_singleton]
      split <;> simp <;> omega
    · next hj =>
      have hold : index j ≠ some pos := fun e => hpos (h.lt_length e)
      exact iff_of_false hold fun e => hj (List.mem_singleton.1 (List.mem_of_getElem? e))

end Aligned

/-- Entries in the order in which their keys came in, with the position of each key. -/
structure Table (κ ν : Type) where
  entries : List (κ × ν)
  index : κ → Option Nat
  aligned : Aligned entries index

namespace Table

/-- The table without entries. -/
def empty : Table κ ν := ⟨[], fun _ => none, .nil⟩

/-- Whether the key `k` has a position. -/
def contains (t : Table κ ν) (k : κ) : Bool := (t.index k).isSome

/-- The value at the position of the key `k`. -/
def get? (t : Table κ ν) (k : κ) : Option ν :=
  match h : t.index k with
  | some pos =>
    have hlt : pos < t.entries.length := t.aligned.lt_length h
    some t.entries[pos].2
  | none => none

theorem nodup (t : Table κ ν) : (t.entries.map (·.1)).Nodup := t.aligned.nodup

theorem contains_iff {t : Table κ ν} {k : κ} : t.contains k = true ↔ k ∈ t.entries.map (·.1) := by
  rw [contains, Option.isSome_iff_ne_none, Ne, t.aligned.eq_none_iff, Classical.not_not]

/-- Tables are known by their entries. -/
theorem ext_entries {t u : Table κ ν} (h : t.entries = u.entries) : t = u := by
  have hindex : t.index = u.index := by
    refine funext fun k => Option.ext fun pos => ?_
    rw [t.aligned k pos, u.aligned k pos, h]
  cases t
  cases u
  cases h
  cases hindex
  rfl

variable [DecidableEq κ]

/-- The value that is found by its position is the one that is found in the entries. -/
theorem get?_eq_lookup (t : Table κ ν) (k : κ) : t.get? k = lookup k t.entries := by
  unfold get?
  split
  · next pos hk =>
    have hlt : pos < t.entries.length := t.aligned.lt_length hk
    exact (lookup_of_getElem t.nodup hlt (t.aligned.fst_getElem hk hlt)).symm
  · next hk => exact (lookup_eq_none_iff.2 (t.aligned.eq_none_iff.1 hk)).symm

/-- The table with the value at the position of the key `k` changed by `f`, or with a last entry for `k` that holds `v`. -/
def upsert (t : Table κ ν) (k : κ) (v : ν) (f : ν → ν) : Table κ ν :=
  match h : t.index k with
  | some pos =>
    have hlt : pos < t.entries.length := t.aligned.lt_length h
    { entries := t.entries.set pos (t.entries[pos].1, f t.entries[pos].2)
      index := t.index
      aligned := t.aligned.set hlt _ }
  | none =>
    { entries := t.entries ++ [(k, v)]
      index := fun j => if j = k then some t.entries.length else t.index j
      aligned := t.aligned.concat h v }

/-- The value that is changed at its position is the one that is changed in the entries. -/
theorem entries_upsert (t : Table κ ν) (k : κ) (v : ν) (f : ν → ν) :
    (t.upsert k v f).entries = FirstSeen.upsert k v f t.entries := by
  unfold upsert
  split
  · next pos hk =>
    have hlt : pos < t.entries.length := t.aligned.lt_length hk
    exact (upsert_of_getElem t.nodup hlt (t.aligned.fst_getElem hk hlt) v f).symm
  · next hk => exact (upsert_of_notMem (t.aligned.eq_none_iff.1 hk)).symm

end Table

end DeckLegality.FirstSeen
