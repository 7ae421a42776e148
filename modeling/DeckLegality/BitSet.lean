import DeckLegality.Word

/-!
# Sets of small numbers as bits

The search for a pairing keeps which cards are placed and which sets are used.  Both are sets of small numbers, so
each is kept as the bits of a list of words: the number `i` is bit `i % 64` of word `i / 64`.  A number beyond the
words has no room and cannot be put in, and sets with different room are different even if their members are the
same.

`contains` is the view on which the operations are stated.  `mem_toList` and `pairwise_toList` tie the listing to
it, `count_eq_length_toList` the count to the listing, and `ext_contains` says that the view leaves nothing out.
-/

namespace DeckLegality

/-- A set of numbers below `64 * words.length`. -/
structure BitSet where
  words : List Word
  deriving DecidableEq, Hashable

namespace BitSet

/-- The numbers below this one have room. -/
def capacity (s : BitSet) : Nat := 64 * s.words.length

/-- The empty set with room for the numbers below `width`, and for one word at least. -/
def withWidth (width : Nat) : BitSet := ⟨List.replicate (max 1 ((width + 63) / 64)) 0#64⟩

instance : Inhabited BitSet := ⟨withWidth 0⟩

/-- Whether the number `i` is a member. -/
def contains (s : BitSet) (i : Nat) : Bool :=
  match s.words[i / 64]? with
  | some w => w.has (i % 64)
  | none => false

/-- The set with the number `i` as a member; nothing changes if there is no room for it. -/
def insert (s : BitSet) (i : Nat) : BitSet := ⟨s.words.modify (i / 64) (· ||| Word.bit (i % 64))⟩

/-- The set without the number `i`. -/
def erase (s : BitSet) (i : Nat) : BitSet := ⟨s.words.modify (i / 64) (· &&& ~~~Word.bit (i % 64))⟩

/-- The set with the number `i`, unless there is no room for it. -/
def insert? (s : BitSet) (i : Nat) : Option BitSet := if i < s.capacity then some (s.insert i) else none

/-- The set without the number `i`, unless there is no room for it. -/
def erase? (s : BitSet) (i : Nat) : Option BitSet := if i < s.capacity then some (s.erase i) else none

/-- The set without the members of `t`; what `t` has no words for is kept. -/
def difference (s t : BitSet) : BitSet :=
  ⟨List.zipWith (fun a b => a &&& ~~~b) s.words (t.words ++ List.replicate s.words.length 0#64)⟩

/-- The members, in ascending order: those of each word in turn. -/
def toList (s : BitSet) : List Nat := s.words.zipIdx.flatMap fun (w, k) => w.ones.map (64 * k + ·)

/-- The number of members. -/
def count (s : BitSet) : Nat := (s.words.map (·.cpop.toNat)).foldr (· + ·) 0

/-- Whether there is no member. -/
def isEmpty (s : BitSet) : Bool := s.words.all (· = 0#64)

/-! ## Room -/

theorem le_capacity_withWidth (width : Nat) : width ≤ (withWidth width).capacity := by
  rw [capacity, withWidth, List.length_replicate]
  omega

@[simp] theorem capacity_insert (s : BitSet) (i : Nat) : (s.insert i).capacity = s.capacity := by
  rw [capacity, insert, List.length_modify, capacity]

@[simp] theorem capacity_erase (s : BitSet) (i : Nat) : (s.erase i).capacity = s.capacity := by
  rw [capacity, erase, List.length_modify, capacity]

/-! ## Members -/

/-- A member is a set bit of its word. -/
theorem contains_eq (s : BitSet) (i : Nat) :
    s.contains i = (s.words[i / 64]?.getD 0#64).getLsbD (i % 64) := by
  rw [contains]
  cases s.words[i / 64]? with
  | none => simp
  | some w => exact Word.has_eq_getLsbD (Nat.mod_lt i (by decide)) w

theorem lt_capacity_of_contains {s : BitSet} {i : Nat} (h : s.contains i = true) : i < s.capacity := by
  rw [contains] at h
  split at h
  · next w hw =>
    have := (List.getElem?_eq_some_iff.1 hw).1
    rw [capacity]
    omega
  · exact absurd h Bool.false_ne_true

@[simp] theorem contains_withWidth (width i : Nat) : (withWidth width).contains i = false := by
  rw [contains_eq, withWidth, List.getElem?_replicate]
  split <;> simp

theorem contains_insert {s : BitSet} {i : Nat} (h : i < s.capacity) (j : Nat) :
    (s.insert i).contains j = (decide (j = i) || s.contains j) := by
  rw [contains_eq, contains_eq, insert, List.getElem?_modify]
  by_cases hw : i / 64 = j / 64
  · have hlt : j / 64 < s.words.length := by
      rw [capacity] at h
      omega
    have hbit := Word.getLsbD_bit (Nat.mod_lt i (by decide : 64 > 0)) (j % 64)
    have hji : j = i ↔ j % 64 = i % 64 := by omega
    simp [hw, List.getElem?_eq_getElem hlt, BitVec.getLsbD_or, hbit, decide_eq_decide.2 hji, Bool.or_comm]
  · have hne : j ≠ i := fun e => hw (e ▸ rfl)
    simp [hw, hne]

theorem contains_erase (s : BitSet) (i j : Nat) : (s.erase i).contains j = (s.contains j && !decide (j = i)) := by
  rw [contains_eq, contains_eq, erase, List.getElem?_modify]
  by_cases hw : i / 64 = j / 64
  · have hbit := Word.getLsbD_bit (Nat.mod_lt i (by decide : 64 > 0)) (j % 64)
    have hlt : j % 64 < 64 := Nat.mod_lt j (by decide)
    have hji : j = i ↔ j % 64 = i % 64 := by omega
    cases s.words[j / 64]? with
    | none => simp
    | some w =>
      simp only [hw, if_true, Option.map_eq_map, Option.map_some, Option.getD_some, BitVec.getLsbD_and,
        BitVec.getLsbD_not, hlt, decide_true, Bool.true_and, hbit, decide_eq_decide.2 hji]
  · have hne : j ≠ i := fun e => hw (e ▸ rfl)
    simp [hw, hne]

theorem contains_difference (s t : BitSet) (j : Nat) :
    (s.difference t).contains j = (s.contains j && !t.contains j) := by
  rw [contains_eq, contains_eq, contains_eq, difference, List.getElem?_zipWith]
  cases hs : s.words[j / 64]? with
  | none => simp
  | some w =>
    have hlt : j % 64 < 64 := Nat.mod_lt j (by decide)
    have hlen : j / 64 < s.words.length := (List.getElem?_eq_some_iff.1 hs).1
    have ht : (t.words ++ List.replicate s.words.length 0#64)[j / 64]? = some (t.words[j / 64]?.getD 0#64) := by
      rw [List.getElem?_append]
      split
      · next h => rw [List.getElem?_eq_getElem h, Option.getD_some]
      · next h =>
        rw [List.getElem?_replicate, if_pos (by omega), List.getElem?_eq_none (by omega), Option.getD_none]
    simp [ht, hlt]

/-- Sets with the same room and the same members are equal. -/
theorem ext_contains {s t : BitSet} (hcap : s.capacity = t.capacity) (h : ∀ i, s.contains i = t.contains i) :
    s = t := by
  obtain ⟨v⟩ := s
  obtain ⟨w⟩ := t
  have hlen : v.length = w.length := by
    simp only [capacity] at hcap
    omega
  congr 1
  refine List.ext_getElem hlen fun k hv hw => BitVec.eq_of_getLsbD_eq fun i hi => ?_
  have hk : (64 * k + i) / 64 = k ∧ (64 * k + i) % 64 = i := by omega
  have := h (64 * k + i)
  rw [contains_eq, contains_eq, hk.1, hk.2] at this
  simpa [List.getElem?_eq_getElem hv, List.getElem?_eq_getElem hw] using this

/-- Taking out a number that was put in newly restores the set. -/
theorem erase_insert {s : BitSet} {i : Nat} (h : s.contains i = false) : (s.insert i).erase i = s := by
  refine ext_contains (by simp) fun j => ?_
  rw [contains_erase]
  by_cases hi : i < s.capacity
  · rw [contains_insert hi]
    by_cases hj : j = i
    · simp [hj, h]
    · simp [hj]
  · have hmod : s.insert i = s := by
      rw [insert, List.modify_eq_self]
      rw [capacity] at hi
      omega
    rw [hmod]
    by_cases hj : j = i
    · simp [hj, h]
    · simp [hj]

/-! ## Listing and counting -/

@[simp] theorem mem_toList {s : BitSet} {i : Nat} : i ∈ s.toList ↔ s.contains i = true := by
  simp only [toList, List.mem_flatMap, List.mem_map, Prod.exists, List.mem_zipIdx_iff_getElem?, Word.mem_ones]
  constructor
  · rintro ⟨w, k, hk, j, hj, rfl⟩
    have hlt := BitVec.lt_of_getLsbD hj
    have : (64 * k + j) / 64 = k ∧ (64 * k + j) % 64 = j := by omega
    rw [contains_eq, this.1, this.2, hk]
    exact hj
  · intro h
    rw [contains_eq] at h
    cases hw : s.words[i / 64]? with
    | none => simp [hw] at h
    | some w =>
      rw [hw] at h
      exact ⟨w, i / 64, hw, i % 64, h, Nat.div_add_mod i 64⟩

theorem pairwise_toList (s : BitSet) : s.toList.Pairwise (· < ·) := by
  refine List.pairwise_flatMap.2 ⟨fun p _ => ?_, ?_⟩
  · exact List.pairwise_map.2 (p.1.pairwise_ones.imp fun h => Nat.add_lt_add_left h _)
  · have hidx : (s.words.zipIdx.map Prod.snd).Pairwise (· < ·) := by
      rw [List.zipIdx_map_snd]
      exact List.pairwise_lt_range'
    refine (List.pairwise_map.1 hidx).imp fun {p q} hpq x hx y hy => ?_
    obtain ⟨i, hi, rfl⟩ := List.mem_map.1 hx
    obtain ⟨j, _, rfl⟩ := List.mem_map.1 hy
    have := Word.lt_of_mem_ones hi
    omega

theorem count_eq_length_toList (s : BitSet) : s.count = s.toList.length := by
  have key : ∀ (l : List Word) (k : Nat), (l.map (·.cpop.toNat)).foldr (· + ·) 0
      = ((l.zipIdx k).flatMap fun (w, k) => w.ones.map (64 * k + ·)).length := by
    intro l
    induction l with
    | nil => exact fun _ => rfl
    | cons w l ih =>
      intro k
      rw [List.map_cons, List.foldr_cons, ih (k + 1), List.zipIdx_cons, List.flatMap_cons, List.length_append,
        List.length_map, Word.length_ones]
  exact key s.words 0

end BitSet

end DeckLegality
