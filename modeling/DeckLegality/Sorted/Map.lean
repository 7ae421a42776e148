import DeckLegality.Sorted.Set

/-!
# Finite maps, listed by ascending key

A `SortedMap` holds one value for each of finitely many keys and lists the pairs by ascending key.  As with
`SortedSet`, the listing is unique: two sorted maps that answer every look-up alike are equal
(`SortedMap.ext_get?`).
-/

namespace DeckLegality

/-- A finite map, given by its pairs of key and value in ascending order of the keys. -/
structure SortedMap (κ ν : Type) [LT κ] where
  toList : List (κ × ν)
  ascending : toList.Pairwise (·.1 < ·.1) := by simp

namespace SortedMap

section Basic

variable {κ ν : Type} [LT κ]

/-- The map without keys. -/
def empty : SortedMap κ ν := ⟨[], .nil⟩

instance : EmptyCollection (SortedMap κ ν) := ⟨empty⟩

instance : Inhabited (SortedMap κ ν) := ⟨∅⟩

/-- The keys, in ascending order. -/
def keys (m : SortedMap κ ν) : List κ := m.toList.map (·.1)

/-- The values, in ascending order of their keys. -/
def values (m : SortedMap κ ν) : List ν := m.toList.map (·.2)

/-- The number of keys. -/
def size (m : SortedMap κ ν) : Nat := m.toList.length

/-- Whether there is no key. -/
def isEmpty (m : SortedMap κ ν) : Bool := m.toList.isEmpty

end Basic

section Lookup

variable {κ ν : Type} [LT κ] [DecidableEq κ]

instance [DecidableEq ν] : DecidableEq (SortedMap κ ν) := fun m n =>
  if h : m.toList = n.toList then isTrue (by cases m; cases n; cases h; rfl)
  else isFalse fun e => h (e ▸ rfl)

/-- The value at a key. -/
def get? (m : SortedMap κ ν) (k : κ) : Option ν := (m.toList.find? (·.1 = k)).map (·.2)

@[simp] theorem get?_empty (k : κ) : (∅ : SortedMap κ ν).get? k = none := rfl

theorem get?_eq_some_iff [LE κ] [Std.IsLinearOrder κ] [Std.LawfulOrderLT κ] {m : SortedMap κ ν} {k : κ} {v : ν} :
    m.get? k = some v ↔ (k, v) ∈ m.toList := by
  obtain ⟨l, hl⟩ := m
  simp only [get?]
  induction l with
  | nil => simp
  | cons p l ih =>
    have hp := List.pairwise_cons.1 hl
    by_cases hk : p.1 = k
    · subst hk
      have : (p.1, v) ∉ l := fun hv => absurd (hp.1 _ hv) Std.lt_irrefl
      obtain ⟨k, w⟩ := p
      simp [this, eq_comm]
    · have : (k, v) ≠ p := fun e => hk (e ▸ rfl)
      simp [hk, ih hp.2, this]

theorem mem_keys [LE κ] [Std.IsLinearOrder κ] [Std.LawfulOrderLT κ] {m : SortedMap κ ν} {k : κ} :
    k ∈ m.keys ↔ ∃ v, m.get? k = some v := by
  rw [keys, List.mem_map]
  constructor
  · rintro ⟨p, hp, rfl⟩
    exact ⟨p.2, get?_eq_some_iff.2 hp⟩
  · rintro ⟨v, hv⟩
    exact ⟨(k, v), get?_eq_some_iff.1 hv, rfl⟩

end Lookup

/-! ## Putting values in -/

section Order

variable {κ ν : Type} [LE κ] [LT κ] [DecidableLT κ] [Std.IsLinearOrder κ] [Std.LawfulOrderLT κ]

/-- Puts a pair at its place in a list with ascending keys; it replaces a pair with the same key. -/
def place (k : κ) (v : ν) : List (κ × ν) → List (κ × ν)
  | [] => [(k, v)]
  | p :: r => if k < p.1 then (k, v) :: p :: r else if p.1 < k then p :: place k v r else (k, v) :: r

theorem mem_place {k : κ} {v : ν} {l : List (κ × ν)} (h : l.Pairwise (·.1 < ·.1)) {x : κ × ν} :
    x ∈ place k v l ↔ x = (k, v) ∨ x ∈ l ∧ x.1 ≠ k := by
  induction l with
  | nil => simp [place]
  | cons p r ih =>
    have hp := List.pairwise_cons.1 h
    have later : ∀ q ∈ r, p.1 ≠ q.1 := fun q hq => Std.ne_of_lt (hp.1 q hq)
    by_cases hkp : k < p.1
    · have : ∀ q ∈ p :: r, q.1 ≠ k := fun q hq => by
        rcases List.mem_cons.1 hq with rfl | hq
        · exact (Std.ne_of_lt hkp).symm
        · exact (Std.ne_of_lt (Std.lt_trans hkp (hp.1 q hq))).symm
      simp only [place, hkp, if_true, List.mem_cons]
      constructor
      · rintro (e | e)
        · exact .inl e
        · exact .inr ⟨e, this x (List.mem_cons.2 e)⟩
      · rintro (e | e)
        · exact .inl e
        · exact .inr e.1
    · by_cases hpk : p.1 < k
      · have : p.1 ≠ k := Std.ne_of_lt hpk
        simp only [place, hkp, hpk, if_true, if_false, List.mem_cons, ih hp.2]
        constructor
        · rintro (rfl | e | e)
          · exact .inr ⟨.inl rfl, this⟩
          · exact .inl e
          · exact .inr ⟨.inr e.1, e.2⟩
        · rintro (e | ⟨rfl | e, hne⟩)
          · exact .inr (.inl e)
          · exact .inl rfl
          · exact .inr (.inr ⟨e, hne⟩)
      · have : k = p.1 := Std.le_antisymm (Std.not_lt.1 hpk) (Std.not_lt.1 hkp)
        subst this
        simp only [place, hkp, if_false, List.mem_cons]
        constructor
        · rintro (e | e)
          · exact .inl e
          · exact .inr ⟨.inr e, (later x e).symm⟩
        · rintro (e | ⟨rfl | e, hne⟩)
          · exact .inl e
          · exact absurd rfl hne
          · exact .inr e

theorem pairwise_place {k : κ} {v : ν} {l : List (κ × ν)} (h : l.Pairwise (·.1 < ·.1)) :
    (place k v l).Pairwise (·.1 < ·.1) := by
  induction l with
  | nil => simp [place]
  | cons p r ih =>
    have hp := List.pairwise_cons.1 h
    by_cases hkp : k < p.1
    · rw [place, if_pos hkp]
      refine List.pairwise_cons.2 ⟨fun x hx => ?_, h⟩
      rcases List.mem_cons.1 hx with rfl | hx
      · exact hkp
      · exact Std.lt_trans hkp (hp.1 x hx)
    · by_cases hpk : p.1 < k
      · rw [place, if_neg hkp, if_pos hpk]
        refine List.pairwise_cons.2 ⟨fun x hx => ?_, ih hp.2⟩
        rcases (mem_place hp.2).1 hx with rfl | ⟨hx, -⟩
        · exact hpk
        · exact hp.1 x hx
      · rw [place, if_neg hkp, if_neg hpk]
        have : k = p.1 := Std.le_antisymm (Std.not_lt.1 hpk) (Std.not_lt.1 hkp)
        subst this
        exact List.pairwise_cons.2 ⟨hp.1, hp.2⟩

/-- The map with `v` at `k`, in place of any earlier value there. -/
def insert (m : SortedMap κ ν) (k : κ) (v : ν) : SortedMap κ ν := ⟨place k v m.toList, pairwise_place m.ascending⟩

/-- The map of a list of pairs; of several pairs with one key the last one counts. -/
def ofList (l : List (κ × ν)) : SortedMap κ ν := l.foldl (fun m p => m.insert p.1 p.2) ∅

variable [DecidableEq κ]

theorem get?_insert {m : SortedMap κ ν} {k j : κ} {v : ν} :
    (m.insert k v).get? j = if j = k then some v else m.get? j := by
  refine Option.ext fun w => ?_
  rw [get?_eq_some_iff, insert, mem_place m.ascending]
  by_cases h : j = k
  · subst h
    simp [eq_comm]
  · simp [h, get?_eq_some_iff]

/-- Of a list in which no key has two values, the map holds exactly the pairs. -/
theorem get?_ofList_eq_some_iff {l : List (κ × ν)} (h : ∀ p ∈ l, ∀ q ∈ l, p.1 = q.1 → p = q) {k : κ} {v : ν} :
    (ofList l : SortedMap κ ν).get? k = some v ↔ (k, v) ∈ l := by
  -- The fold keeps what it started with at the keys that the list does not name.
  suffices hfold : ∀ m : SortedMap κ ν, (l.foldl (fun m p => m.insert p.1 p.2) m).get? k = some v ↔
      (k, v) ∈ l ∨ (∀ p ∈ l, p.1 ≠ k) ∧ m.get? k = some v by
    simpa [ofList] using hfold ∅
  induction l with
  | nil => simp
  | cons p l ih =>
    intro m
    have hl := ih (fun x hx y hy => h x (List.mem_cons_of_mem _ hx) y (List.mem_cons_of_mem _ hy))
    rw [List.foldl_cons, hl, get?_insert, List.mem_cons]
    by_cases hk : k = p.1
    · have hother : ∀ q ∈ l, q.1 = k → q = p := fun q hq e =>
        h q (List.mem_cons_of_mem _ hq) p List.mem_cons_self (e.trans hk)
      have hv : (k, v) = p ↔ p.2 = v := by
        rw [hk]
        exact ⟨fun e => e ▸ rfl, fun e => e ▸ rfl⟩
      rw [if_pos hk, hv]
      constructor
      · rintro (hmem | ⟨-, e⟩)
        · exact .inl (.inr hmem)
        · exact .inl (.inl (Option.some.inj e))
      · rintro ((e | hmem) | ⟨hnone, -⟩)
        · by_cases hin : ∃ q ∈ l, q.1 = k
          · obtain ⟨q, hq, hqk⟩ := hin
            have hqp := hother q hq hqk
            exact .inl (by rwa [hv.2 e, ← hqp])
          · exact .inr ⟨fun q hq e' => hin ⟨q, hq, e'⟩, congrArg some e⟩
        · exact .inl hmem
        · exact absurd hk.symm (hnone p List.mem_cons_self)
    · have hv : (k, v) ≠ p := fun e => hk (e ▸ rfl)
      rw [if_neg hk]
      simp only [hv, false_or, List.forall_mem_cons, ne_eq, Ne.symm hk, not_false_eq_true, true_and]

end Order

/-! ## One listing for each map -/

theorem nodup_keys {κ ν : Type} [LE κ] [LT κ] [Std.IsLinearOrder κ] [Std.LawfulOrderLT κ] (m : SortedMap κ ν) :
    m.keys.Nodup :=
  List.pairwise_map.2 (m.ascending.imp fun h => Std.ne_of_lt h)

/-- A sorted map is known by its look-ups. -/
theorem ext_get? {κ ν : Type} [LE κ] [LT κ] [DecidableEq κ] [Std.IsLinearOrder κ] [Std.LawfulOrderLT κ]
    {m n : SortedMap κ ν} (h : ∀ k, m.get? k = n.get? k) : m = n := by
  have h' : ∀ p, p ∈ m.toList ↔ p ∈ n.toList := fun p => by
    rw [← get?_eq_some_iff (k := p.1) (v := p.2), ← get?_eq_some_iff (k := p.1) (v := p.2), h]
  obtain ⟨l, hl⟩ := m
  obtain ⟨r, hr⟩ := n
  replace h : ∀ p, p ∈ l ↔ p ∈ r := h'
  suffices l = r by subst this; rfl
  clear h'
  induction l generalizing r with
  | nil => cases r with
    | nil => rfl
    | cons b r => exact absurd ((h b).2 List.mem_cons_self) List.not_mem_nil
  | cons a l ih => cases r with
    | nil => exact absurd ((h a).1 List.mem_cons_self) List.not_mem_nil
    | cons b r =>
      have hl' := List.pairwise_cons.1 hl
      have hr' := List.pairwise_cons.1 hr
      have hab : a = b := by
        rcases List.mem_cons.1 ((h a).1 List.mem_cons_self) with e | e
        · exact e
        · rcases List.mem_cons.1 ((h b).2 List.mem_cons_self) with e' | e'
          · exact e'.symm
          · exact absurd (Std.lt_trans (hr'.1 a e) (hl'.1 b e')) Std.lt_irrefl
      subst hab
      congr 1
      refine ih hl'.2 r hr'.2 fun x => ⟨fun hx => ?_, fun hx => ?_⟩
      · rcases List.mem_cons.1 ((h x).1 (List.mem_cons_of_mem _ hx)) with e | e
        · exact absurd (e ▸ hl'.1 x hx) Std.lt_irrefl
        · exact e
      · rcases List.mem_cons.1 ((h x).2 (List.mem_cons_of_mem _ hx)) with e | e
        · exact absurd (e ▸ hr'.1 x hx) Std.lt_irrefl
        · exact e

end SortedMap

end DeckLegality
