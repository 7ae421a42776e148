/-!
# Finite sets, listed in ascending order

A set of set codes has no order of its own, but whatever shows it lists it in ascending order.  A `SortedSet` is
that listing: a list in which every element is below all later ones.  Each finite set has exactly one such list,
so two sorted sets with the same members are equal (`SortedSet.ext_mem`).
-/

namespace DeckLegality

/-- A finite set, given by its members in ascending order. -/
structure SortedSet (α : Type) [LT α] where
  toList : List α
  ascending : toList.Pairwise (· < ·) := by simp

namespace SortedSet

section Basic

variable {α : Type} [LT α]

instance : Membership α (SortedSet α) := ⟨fun s a => a ∈ s.toList⟩

/-- The set without members. -/
def empty : SortedSet α := ⟨[], .nil⟩

instance : EmptyCollection (SortedSet α) := ⟨empty⟩

instance : Inhabited (SortedSet α) := ⟨∅⟩

/-- The number of members. -/
def size (s : SortedSet α) : Nat := s.toList.length

/-- Whether there is no member. -/
def isEmpty (s : SortedSet α) : Bool := s.toList.isEmpty

@[simp] theorem mem_toList {s : SortedSet α} {a : α} : a ∈ s.toList ↔ a ∈ s := Iff.rfl

@[simp] theorem not_mem_empty (a : α) : a ∉ (∅ : SortedSet α) := List.not_mem_nil

theorem isEmpty_iff {s : SortedSet α} : s.isEmpty = true ↔ ∀ a, a ∉ s := by
  rw [isEmpty, List.isEmpty_iff, List.eq_nil_iff_forall_not_mem]
  rfl

end Basic

/-! ## Common members -/

section Common

variable {α : Type} [LT α] [DecidableEq α]

instance : DecidableEq (SortedSet α) := fun s t =>
  if h : s.toList = t.toList then isTrue (by cases s; cases t; cases h; rfl)
  else isFalse fun e => h (e ▸ rfl)

instance (a : α) (s : SortedSet α) : Decidable (a ∈ s) := inferInstanceAs (Decidable (a ∈ s.toList))

/-- Whether `a` is a member. -/
def contains (s : SortedSet α) (a : α) : Bool := decide (a ∈ s)

/-- The members of both sets; the smaller set is gone through. -/
def inter (s t : SortedSet α) : SortedSet α :=
  if s.size ≤ t.size then ⟨s.toList.filter t.contains, s.ascending.filter _⟩
  else ⟨t.toList.filter s.contains, t.ascending.filter _⟩

/-- Whether the two sets have a common member; the smaller set is gone through. -/
def intersects (s t : SortedSet α) : Bool :=
  if s.size ≤ t.size then s.toList.any t.contains else t.toList.any s.contains

@[simp] theorem contains_iff {s : SortedSet α} {a : α} : s.contains a = true ↔ a ∈ s := decide_eq_true_iff

@[simp] theorem mem_inter {s t : SortedSet α} {x : α} : x ∈ s.inter t ↔ x ∈ s ∧ x ∈ t := by
  unfold inter
  split
  · exact List.mem_filter.trans (and_congr_right fun _ => contains_iff)
  · exact (List.mem_filter.trans (and_congr_right fun _ => contains_iff)).trans and_comm

theorem intersects_iff {s t : SortedSet α} : s.intersects t = true ↔ ∃ x, x ∈ s ∧ x ∈ t := by
  unfold intersects
  split
  · exact List.any_eq_true.trans (exists_congr fun _ => and_congr_right fun _ => contains_iff)
  · refine List.any_eq_true.trans (exists_congr fun _ => ?_)
    exact (and_congr_right fun _ => contains_iff).trans and_comm

end Common

/-! ## Putting members in -/

section Order

variable {α : Type} [LE α] [LT α] [DecidableLT α] [Std.IsLinearOrder α] [Std.LawfulOrderLT α]

/-- Puts an element at its place in an ascending list, unless it is there already. -/
def place (a : α) : List α → List α
  | [] => [a]
  | b :: r => if a < b then a :: b :: r else if b < a then b :: place a r else b :: r

theorem mem_place {a x : α} {l : List α} : x ∈ place a l ↔ x = a ∨ x ∈ l := by
  induction l with
  | nil => simp [place]
  | cons b r ih =>
    by_cases hab : a < b
    · simp [place, hab]
    · by_cases hba : b < a
      · simp only [place, hab, hba, if_true, if_false, List.mem_cons, ih]
        exact or_left_comm
      · have : a = b := Std.le_antisymm (Std.not_lt.1 hba) (Std.not_lt.1 hab)
        subst this
        simp [place, hab]

theorem pairwise_place {a : α} {l : List α} (h : l.Pairwise (· < ·)) : (place a l).Pairwise (· < ·) := by
  induction l with
  | nil => simp [place]
  | cons b r ih =>
    have hb := List.pairwise_cons.1 h
    by_cases hab : a < b
    · rw [place, if_pos hab]
      refine List.pairwise_cons.2 ⟨fun x hx => ?_, h⟩
      rcases List.mem_cons.1 hx with rfl | hx
      · exact hab
      · exact Std.lt_trans hab (hb.1 x hx)
    · by_cases hba : b < a
      · rw [place, if_neg hab, if_pos hba]
        refine List.pairwise_cons.2 ⟨fun x hx => ?_, ih hb.2⟩
        rcases mem_place.1 hx with rfl | hx
        · exact hba
        · exact hb.1 x hx
      · rw [place, if_neg hab, if_neg hba]
        exact h

/-- The set with one more member. -/
def insert (s : SortedSet α) (a : α) : SortedSet α := ⟨place a s.toList, pairwise_place s.ascending⟩

/-- The set with the elements of a list added. -/
def insertAll (s : SortedSet α) (l : List α) : SortedSet α := l.foldl insert s

/-- The set of the elements of a list, in whatever order and however often it names them. -/
def ofList (l : List α) : SortedSet α := insertAll ∅ l

/-- The members of either set. -/
def union (s t : SortedSet α) : SortedSet α := s.insertAll t.toList

@[simp] theorem mem_insert {s : SortedSet α} {a x : α} : x ∈ s.insert a ↔ x = a ∨ x ∈ s := mem_place

@[simp] theorem mem_insertAll {l : List α} {s : SortedSet α} {x : α} : x ∈ s.insertAll l ↔ x ∈ s ∨ x ∈ l := by
  induction l generalizing s with
  | nil => simp [insertAll]
  | cons a l ih =>
    rw [insertAll, List.foldl_cons, ← insertAll, ih, mem_insert, List.mem_cons, or_comm (a := x = a), or_assoc]

@[simp] theorem mem_ofList {l : List α} {x : α} : x ∈ ofList l ↔ x ∈ l := by simp [ofList]

@[simp] theorem mem_union {s t : SortedSet α} {x : α} : x ∈ s.union t ↔ x ∈ s ∨ x ∈ t := by simp [union]

end Order

/-! ## One listing for each set -/

theorem nodup_toList {α : Type} [LE α] [LT α] [Std.IsLinearOrder α] [Std.LawfulOrderLT α] (s : SortedSet α) :
    s.toList.Nodup :=
  s.ascending.imp fun h => Std.ne_of_lt h

/-- A sorted set is known by its members. -/
theorem ext_mem {α : Type} [LE α] [LT α] [Std.IsLinearOrder α] [Std.LawfulOrderLT α] {s t : SortedSet α}
    (h : ∀ x, x ∈ s ↔ x ∈ t) : s = t := by
  obtain ⟨l, hl⟩ := s
  obtain ⟨m, hm⟩ := t
  replace h : ∀ x, x ∈ l ↔ x ∈ m := h
  suffices l = m by subst this; rfl
  induction l generalizing m with
  | nil => cases m with
    | nil => rfl
    | cons b m => exact absurd ((h b).2 List.mem_cons_self) List.not_mem_nil
  | cons a l ih => cases m with
    | nil => exact absurd ((h a).1 List.mem_cons_self) List.not_mem_nil
    | cons b m =>
      have hl' := List.pairwise_cons.1 hl
      have hm' := List.pairwise_cons.1 hm
      have hab : a = b := by
        rcases List.mem_cons.1 ((h a).1 List.mem_cons_self) with e | e
        · exact e
        · rcases List.mem_cons.1 ((h b).2 List.mem_cons_self) with e' | e'
          · exact e'.symm
          · exact absurd (Std.lt_trans (hm'.1 a e) (hl'.1 b e')) Std.lt_irrefl
      subst hab
      congr 1
      refine ih hl'.2 m hm'.2 fun x => ⟨fun hx => ?_, fun hx => ?_⟩
      · rcases List.mem_cons.1 ((h x).1 (List.mem_cons_of_mem _ hx)) with e | e
        · exact absurd (e ▸ hl'.1 x hx) Std.lt_irrefl
        · exact e
      · rcases List.mem_cons.1 ((h x).2 (List.mem_cons_of_mem _ hx)) with e | e
        · exact absurd (e ▸ hm'.1 x hx) Std.lt_irrefl
        · exact e

/-- The elements of a sorted set in any order make up the set. -/
theorem ofList_eq_of_perm {α : Type} [LE α] [LT α] [DecidableLT α] [Std.IsLinearOrder α] [Std.LawfulOrderLT α]
    {s : SortedSet α} {l : List α} (h : l.Perm s.toList) : ofList l = s :=
  ext_mem fun _ => mem_ofList.trans h.mem_iff

end SortedSet

end DeckLegality
