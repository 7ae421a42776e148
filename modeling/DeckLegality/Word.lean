import DeckLegality.Sorted.Set

/-!
# Words of 64 bits

A word stands for the set of the numbers of its bits that are set, all of them below 64.  `Word.ones` lists them by
taking the lowest one and clearing it until no bit is left; `mem_ones` and `pairwise_ones` say that each of them is
listed once and in ascending order, and `length_ones` that there are as many as the population count says.
-/

namespace DeckLegality

/-- A word of 64 bits. -/
abbrev Word := BitVec 64

namespace Word

/-- The word in which bit `i` is set and no other. -/
def bit (i : Nat) : Word := 1#64 <<< i

/-- Whether bit `i` is set. -/
def has (w : Word) (i : Nat) : Bool := w &&& bit i != 0#64

/-- The word with its lowest bit cleared. -/
def clearLowest (w : Word) : Word := w &&& (w - 1#64)

theorem toNat_pos {w : Word} (h : w ≠ 0#64) : 0 < w.toNat :=
  Nat.pos_of_ne_zero fun h0 => h (BitVec.eq_of_toNat_eq h0)

theorem toNat_pred {w : Word} (h : w ≠ 0#64) : (w - 1#64).toNat = w.toNat - 1 := by
  have hone : (1#64).toNat ≤ w.toNat := toNat_pos h
  rw [BitVec.toNat_sub_of_le (BitVec.le_def.2 hone)]
  rfl

theorem clearLowest_lt {w : Word} (h : w ≠ 0#64) : w.clearLowest < w := by
  have hle : w.clearLowest.toNat ≤ (w - 1#64).toNat := by
    rw [clearLowest, BitVec.toNat_and]
    exact Nat.and_le_right
  have hpos := toNat_pos h
  rw [toNat_pred h] at hle
  rw [BitVec.lt_def]
  omega

/-- The numbers of the bits that are set, the lowest one first. -/
def ones (w : Word) : List Nat := if w = 0#64 then [] else w.ctz.toNat :: ones w.clearLowest
termination_by w.toNat
decreasing_by exact clearLowest_lt ‹_›

/-! ## Single bits -/

theorem getLsbD_bit {i : Nat} (h : i < 64) (j : Nat) : (bit i).getLsbD j = decide (j = i) := by
  rw [bit, BitVec.getLsbD_shiftLeft, BitVec.getLsbD_one]
  by_cases hj : j = i
  · subst hj
    simp [h]
  · simp [hj]
    omega

/-- Testing a bit by a mask is reading it. -/
theorem has_eq_getLsbD {i : Nat} (h : i < 64) (w : Word) : w.has i = w.getLsbD i := by
  have hbit : ∀ j, (w &&& bit i).getLsbD j = (w.getLsbD j && decide (j = i)) := fun j => by
    rw [BitVec.getLsbD_and, getLsbD_bit h]
  cases hw : w.getLsbD i with
  | true =>
    have : (w &&& bit i).getLsbD i = true := by simp [hbit, hw]
    simp only [has, bne_iff_ne, ne_eq]
    intro h0
    rw [h0] at this
    simp at this
  | false =>
    have : w &&& bit i = 0#64 := by
      refine BitVec.eq_of_getLsbD_eq fun j _ => ?_
      by_cases hj : j = i
      · simp [hj, hw]
      · simp [hbit, hj]
    simp [has, this]

/-- Of a positive number, `x &&& (x - 1)` keeps the bits that have a lower one below them. -/
theorem testBit_and_pred {x : Nat} (hx : 0 < x) (i : Nat) :
    (x &&& (x - 1)).testBit i = true ↔ x.testBit i = true ∧ ∃ j < i, x.testBit j = true := by
  -- Halving moves every bit down by one; an odd number has its lowest bit at 0.
  induction i generalizing x with
  | zero =>
    rw [Nat.testBit_and, Nat.testBit_zero, Nat.testBit_zero]
    simp
    omega
  | succ i ih =>
    rw [Nat.testBit_and, Nat.testBit_succ, Nat.testBit_succ, ← Nat.testBit_and]
    rcases Nat.mod_two_eq_zero_or_one x with h | h
    · have hpred : (x - 1) / 2 = x / 2 - 1 := by omega
      have h0 : x.testBit 0 = false := by simp [Nat.testBit_zero, h]
      rw [hpred, ih (by omega)]
      refine and_congr_right fun _ => ⟨?_, ?_⟩
      · rintro ⟨j, hj, hx⟩
        exact ⟨j + 1, by omega, by rwa [Nat.testBit_succ]⟩
      · rintro ⟨j, hj, hx⟩
        cases j with
        | zero => rw [h0] at hx; exact absurd hx Bool.false_ne_true
        | succ j => exact ⟨j, by omega, by rwa [Nat.testBit_succ] at hx⟩
    · have hpred : (x - 1) / 2 = x / 2 := by omega
      rw [hpred, Nat.and_self]
      exact ⟨fun hi => ⟨hi, 0, by omega, by simp [Nat.testBit_zero, h]⟩, And.left⟩

theorem getLsbD_clearLowest {w : Word} (h : w ≠ 0#64) (i : Nat) :
    w.clearLowest.getLsbD i = true ↔ w.getLsbD i = true ∧ w.ctz.toNat < i := by
  rw [BitVec.getLsbD, clearLowest, BitVec.toNat_and, toNat_pred h, testBit_and_pred (toNat_pos h)]
  refine and_congr_right fun _ => ⟨?_, fun hi => ⟨_, hi, BitVec.getLsbD_true_ctz_of_ne_zero h⟩⟩
  rintro ⟨j, hj, hw⟩
  refine Nat.lt_of_le_of_lt (Nat.not_lt.1 fun hlt => ?_) hj
  have : w.getLsbD j = false := BitVec.getLsbD_false_of_lt_ctz hlt
  rw [BitVec.getLsbD, hw] at this
  exact absurd this.symm Bool.false_ne_true

/-! ## Listing the bits -/

@[simp] theorem mem_ones {w : Word} {i : Nat} : i ∈ w.ones ↔ w.getLsbD i = true := by
  induction w using ones.induct with
  | case1 => simp [ones]
  | case2 w h ih =>
    rw [ones, if_neg h, List.mem_cons, ih, getLsbD_clearLowest h]
    constructor
    · rintro (rfl | hi)
      · exact BitVec.getLsbD_true_ctz_of_ne_zero h
      · exact hi.1
    · intro hi
      rcases Nat.lt_trichotomy i w.ctz.toNat with hlt | heq | hgt
      · rw [BitVec.getLsbD_false_of_lt_ctz hlt] at hi
        exact absurd hi Bool.false_ne_true
      · exact .inl heq
      · exact .inr ⟨hi, hgt⟩

theorem pairwise_ones (w : Word) : w.ones.Pairwise (· < ·) := by
  induction w using ones.induct with
  | case1 => simp [ones]
  | case2 w h ih =>
    rw [ones, if_neg h]
    refine List.pairwise_cons.2 ⟨fun i hi => ?_, ih⟩
    exact ((getLsbD_clearLowest h i).1 (mem_ones.1 hi)).2

theorem lt_of_mem_ones {w : Word} {i : Nat} (h : i ∈ w.ones) : i < 64 :=
  BitVec.lt_of_getLsbD (mem_ones.1 h)

/-- The loop lists the set bits as a look at every bit would. -/
theorem ones_eq_filter (w : Word) : w.ones = (List.range 64).filter w.getLsbD := by
  have key : (⟨w.ones, w.pairwise_ones⟩ : SortedSet Nat)
      = ⟨(List.range 64).filter w.getLsbD, List.pairwise_lt_range.filter _⟩ := by
    refine SortedSet.ext_mem fun i => ?_
    rw [← SortedSet.mem_toList, ← SortedSet.mem_toList, mem_ones, List.mem_filter, List.mem_range]
    exact ⟨fun hi => ⟨BitVec.lt_of_getLsbD hi, hi⟩, And.right⟩
  exact congrArg SortedSet.toList key

theorem length_ones (w : Word) : w.ones.length = w.cpop.toNat := by
  have hcount : ∀ n, w.cpopNatRec n 0 = (List.range n).countP w.getLsbD := fun n => by
    induction n with
    | zero => rfl
    | succ n ih =>
      rw [BitVec.cpopNatRec_succ, BitVec.cpopNatRec_eq, ih, List.range_succ, List.countP_append]
      cases h : w.getLsbD n <;> simp [h]
  rw [ones_eq_filter, ← List.countP_eq_length_filter, BitVec.toNat_cpop, hcount]

end Word

end DeckLegality
