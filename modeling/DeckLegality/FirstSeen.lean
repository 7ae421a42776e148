/-!
# Entries in the order in which their keys came in

Decklists and candidate sets are lists of entries with distinct keys.  A key that comes in again does not move; its
value is changed where it stands.  `upsert` is that step, `lookup` is the view on which its effect is stated.  Both go
through the entries; `FirstSeen.Table` goes by the positions of the keys instead and comes to the same.
-/

namespace DeckLegality.FirstSeen

/-- A key that comes later in a list without repetitions has not come before. -/
theorem notMem_of_nodup {κ ν : Type} {e : κ × ν} {l r : List (κ × ν)} (h : ((l ++ e :: r).map (·.1)).Nodup) :
    e.1 ∉ l.map (·.1) := by
  rw [List.map_append, List.map_cons] at h
  exact fun hmem => (List.nodup_append.1 h).2.2 _ hmem _ List.mem_cons_self rfl

variable {κ ν : Type} [DecidableEq κ]

/-- The value at the key `k`. -/
def lookup (k : κ) (l : List (κ × ν)) : Option ν := (l.find? (·.1 = k)).map (·.2)

/-- The entries with the value at the key `k` changed by `f`, or with a last entry for `k` that holds `v`. -/
def upsert (k : κ) (v : ν) (f : ν → ν) : List (κ × ν) → List (κ × ν)
  | [] => [(k, v)]
  | e :: r => if e.1 = k then (e.1, f e.2) :: r else e :: upsert k v f r

@[simp] theorem lookup_nil (k : κ) : lookup k ([] : List (κ × ν)) = none := rfl

theorem lookup_cons (k : κ) (e : κ × ν) (l : List (κ × ν)) :
    lookup k (e :: l) = if e.1 = k then some e.2 else lookup k l := by
  by_cases h : e.1 = k <;> simp [lookup, h]

theorem lookup_eq_none_iff {k : κ} {l : List (κ × ν)} : lookup k l = none ↔ k ∉ l.map (·.1) := by
  induction l with
  | nil => simp
  | cons e l ih =>
    rw [lookup_cons]
    by_cases h : e.1 = k
    · simp [h]
    · simp [h, ih, Ne.symm h]

theorem mem_of_lookup_eq_some {k : κ} {v : ν} {l : List (κ × ν)} (h : lookup k l = some v) : (k, v) ∈ l := by
  induction l with
  | nil => simp at h
  | cons e l ih =>
    rw [lookup_cons] at h
    split at h
    · next he => cases h; subst he; exact List.mem_cons_self
    · exact List.mem_cons_of_mem _ (ih h)

theorem map_fst_upsert (k : κ) (v : ν) (f : ν → ν) (l : List (κ × ν)) :
    (upsert k v f l).map (·.1) = if k ∈ l.map (·.1) then l.map (·.1) else l.map (·.1) ++ [k] := by
  induction l with
  | nil => simp [upsert]
  | cons e r ih =>
    by_cases h : e.1 = k
    · simp [upsert, h]
    · simp only [upsert, h, if_false, List.map_cons, ih, List.mem_cons, Ne.symm h, false_or]
      split <;> simp

/-- A key that comes in for the first time goes to the end. -/
theorem upsert_of_notMem {k : κ} {v : ν} {f : ν → ν} {l : List (κ × ν)} (h : k ∉ l.map (·.1)) :
    upsert k v f l = l ++ [(k, v)] := by
  induction l with
  | nil => rfl
  | cons e r ih =>
    rw [List.map_cons, List.mem_cons, not_or] at h
    rw [upsert, if_neg (Ne.symm h.1), ih h.2, List.cons_append]

/-- Of keys without repetitions, each one is found at its position. -/
theorem lookup_of_getElem {l : List (κ × ν)} {k : κ} {pos : Nat} (h : (l.map (·.1)).Nodup) (hpos : pos < l.length)
    (hk : l[pos].1 = k) : lookup k l = some l[pos].2 := by
  induction l generalizing pos with
  | nil => exact absurd hpos (Nat.not_lt_zero pos)
  | cons e r ih =>
    rw [List.map_cons, List.nodup_cons] at h
    rw [lookup_cons]
    cases pos with
    | zero => exact if_pos hk
    | succ pos =>
      have hlt : pos < r.length := Nat.lt_of_succ_lt_succ hpos
      have hne : e.1 ≠ k := fun he => h.1 (he ▸ hk ▸ List.mem_map_of_mem (List.getElem_mem hlt))
      rw [if_neg hne]
      exact ih h.2 hlt hk

/-- Of keys without repetitions, each one has its value changed at its position. -/
theorem upsert_of_getElem {l : List (κ × ν)} {k : κ} {pos : Nat} (h : (l.map (·.1)).Nodup) (hpos : pos < l.length)
    (hk : l[pos].1 = k) (v : ν) (f : ν → ν) : upsert k v f l = l.set pos (l[pos].1, f l[pos].2) := by
  induction l generalizing pos with
  | nil => exact absurd hpos (Nat.not_lt_zero pos)
  | cons e r ih =>
    rw [List.map_cons, List.nodup_cons] at h
    rw [upsert]
    cases pos with
    | zero => exact if_pos hk
    | succ pos =>
      have hlt : pos < r.length := Nat.lt_of_succ_lt_succ hpos
      have hne : e.1 ≠ k := fun he => h.1 (he ▸ hk ▸ List.mem_map_of_mem (List.getElem_mem hlt))
      rw [if_neg hne, List.set_cons_succ]
      exact congrArg (e :: ·) (ih h.2 hlt hk)

/-- Changing the value at one key is seen at that key only. -/
theorem lookup_upsert (j k : κ) (v : ν) (f : ν → ν) (l : List (κ × ν)) :
    lookup j (upsert k v f l) = if j = k then some (((lookup k l).map f).getD v) else lookup j l := by
  induction l with
  | nil => by_cases h : j = k <;> simp [upsert, lookup_cons, h, eq_comm]
  | cons e r ih =>
    by_cases he : e.1 = k
    · by_cases hj : j = k
      · simp [upsert, lookup_cons, he, hj]
      · simp [upsert, lookup_cons, he, hj, Ne.symm hj]
    · by_cases hj : j = k
      · subst hj
        simpa [upsert, lookup_cons, he] using ih
      · simp only [upsert, he, if_false, lookup_cons, ih, hj]

/-- A property of all values survives a change that keeps it. -/
theorem forall_mem_upsert {P : ν → Prop} {k : κ} {v : ν} {f : ν → ν} {l : List (κ × ν)} (hv : P v)
    (hf : ∀ x, P x → P (f x)) (h : ∀ e ∈ l, P e.2) : ∀ e ∈ upsert k v f l, P e.2 := by
  induction l with
  | nil => simpa [upsert] using hv
  | cons e r ih =>
    have hr := fun x hx => h x (List.mem_cons_of_mem _ hx)
    have he := h e List.mem_cons_self
    intro x hx
    rw [upsert] at hx
    split at hx
    · rcases List.mem_cons.1 hx with rfl | hx
      · exact hf _ he
      · exact hr x hx
    · rcases List.mem_cons.1 hx with rfl | hx
      · exact he
      · exact ih hr x hx

end DeckLegality.FirstSeen
