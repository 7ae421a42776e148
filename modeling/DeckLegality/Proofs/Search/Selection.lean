import DeckLegality.Proofs.Search.Completion
import Mathlib.Data.List.GetD

/-!
# The card that is placed next

`mostConstrained` scans the cards with a running best.  It skips the cards that are placed, lets a later card win
only if it has strictly fewer sets left, and stops at a card that has none.  The invariant of the scan is
`ScanInv`: after the cards below `bound`, the running best is the first of them with the fewest sets left.

* `mostConstrained_eq_none_iff`: no card comes next exactly when every card is placed.
* `mostConstrained_eq_some_iff`: otherwise the card is the first one with the fewest sets left, and what comes with
  it is exactly the sets that are left for it.
-/

namespace DeckLegality

namespace Search

/-- `card` is the first of the cards below `bound` that are not placed and have the fewest sets left. -/
structure IsFirstFewest (options : List BitSet) (placed used : BitSet) (bound card : ℕ) : Prop where
  mem : card ∈ unplaced options placed
  lt : card < bound
  count_le : ∀ other ∈ unplaced options placed, other < bound →
    (left options used card).count ≤ (left options used other).count
  count_lt : ∀ other ∈ unplaced options placed, other < card →
    (left options used card).count < (left options used other).count

/-- What a scan over the cards below `bound` knows. -/
def ScanInv (options : List BitSet) (placed used : BitSet) (bound : ℕ) : Option Best → Prop
  | none => ∀ card ∈ unplaced options placed, bound ≤ card
  | some best => IsFirstFewest options placed used bound best.card ∧
      best.available = left options used best.card ∧ best.fewest = best.available.count

variable {options : List BitSet} {placed used : BitSet} {bound : ℕ}

/-! ## One card more -/

/-- A card that is placed changes nothing. -/
theorem ScanInv.skip {best : Option Best} (h : ScanInv options placed used bound best)
    (hplaced : bound ∉ unplaced options placed) : ScanInv options placed used (bound + 1) best := by
  have hne : ∀ card ∈ unplaced options placed, card ≠ bound := fun card hcard he => hplaced (he ▸ hcard)
  cases best with
  | none =>
    intro card hcard
    have hle := h card hcard
    have := hne card hcard
    omega
  | some best =>
    refine ⟨⟨h.1.mem, Nat.lt_succ_of_lt h.1.lt, fun card hcard hlt => ?_, h.1.count_lt⟩, h.2⟩
    have := hne card hcard
    exact h.1.count_le card hcard (by omega)

/-- A card with fewer sets left than every earlier one is the best so far. -/
theorem ScanInv.take {best : Option Best} (h : ScanInv options placed used bound best)
    (hun : bound ∈ unplaced options placed)
    (hfewer : (best.all fun b => (left options used bound).count < b.fewest) = true) :
    ScanInv options placed used (bound + 1)
      (some ⟨bound, left options used bound, (left options used bound).count⟩) := by
  have hearlier : ∀ card ∈ unplaced options placed, card < bound →
      (left options used bound).count < (left options used card).count := by
    intro card hcard hlt
    cases best with
    | none => exact absurd (h card hcard) (by omega)
    | some best =>
      obtain ⟨hbest, havail, hfew⟩ := h
      have hle := hbest.count_le card hcard hlt
      simp only [Option.all_some, decide_eq_true_eq, hfew, havail] at hfewer
      omega
  refine ⟨⟨hun, Nat.lt_succ_self bound, fun card hcard hlt => ?_, hearlier⟩, rfl, rfl⟩
  rcases Nat.lt_succ_iff_lt_or_eq.mp hlt with hlt | rfl
  · exact (hearlier card hcard hlt).le
  · exact le_rfl

/-- A card with as many sets left as an earlier one does not win. -/
theorem ScanInv.keep {best : Option Best} (h : ScanInv options placed used bound best)
    (hfewer : ¬ (best.all fun b => (left options used bound).count < b.fewest) = true) :
    ScanInv options placed used (bound + 1) best := by
  cases best with
  | none => exact absurd rfl hfewer
  | some best =>
    obtain ⟨hbest, havail, hfew⟩ := h
    simp only [Option.all_some, decide_eq_true_eq, hfew, havail] at hfewer
    refine ⟨⟨hbest.mem, Nat.lt_succ_of_lt hbest.lt, fun card hcard hlt => ?_, hbest.count_lt⟩, havail, hfew⟩
    rcases Nat.lt_succ_iff_lt_or_eq.mp hlt with hlt | rfl
    · exact hbest.count_le card hcard hlt
    · omega

/-- After a card without sets the rest need not be looked at. -/
theorem ScanInv.stop {best : Best} (h : ScanInv options placed used bound (some best))
    (hnone : best.fewest = 0) : ScanInv options placed used options.length (some best) := by
  obtain ⟨hbest, havail, hfew⟩ := h
  refine ⟨⟨hbest.mem, (mem_unplaced.mp hbest.mem).1, fun card _ _ => ?_, hbest.count_lt⟩, havail, hfew⟩
  rw [← havail, ← hfew, hnone]
  exact Nat.zero_le _

/-! ## The whole scan -/

theorem scanInv_scan {rest : List BitSet} {best : Option Best} (hrest : options.drop bound = rest)
    (h : ScanInv options placed used bound best) :
    ScanInv options placed used options.length (scan placed used bound best rest) := by
  induction rest generalizing bound best with
  | nil =>
    have hle : options.length ≤ bound := List.drop_eq_nil_iff.mp hrest
    cases best with
    | none => exact fun card hcard => hle.trans (h card hcard)
    | some best =>
      refine ⟨⟨h.1.mem, (mem_unplaced.mp h.1.mem).1, fun card hcard hlt => ?_, h.1.count_lt⟩, h.2⟩
      exact h.1.count_le card hcard (hlt.trans_le hle)
  | cons mask rest ih =>
    have hlt : bound < options.length := by
      by_contra hge
      rw [List.drop_eq_nil_of_le (Nat.not_lt.mp hge)] at hrest
      exact List.cons_ne_nil _ _ hrest.symm
    rw [List.drop_eq_getElem_cons hlt] at hrest
    obtain ⟨hmask, hrest⟩ := List.cons.inj hrest
    have hleft : mask.difference used = left options used bound := by
      rw [left, List.getD_eq_getElem _ _ hlt, hmask]
    rw [scan]
    by_cases hplaced : placed.contains bound = true
    · rw [if_pos hplaced]
      refine ih hrest (h.skip fun hun => ?_)
      rw [(mem_unplaced.mp hun).2] at hplaced
      exact Bool.false_ne_true hplaced
    · rw [if_neg hplaced, hleft]
      have hun : bound ∈ unplaced options placed := mem_unplaced.mpr ⟨hlt, by simpa using hplaced⟩
      dsimp only
      split
      · next hfewer =>
        split
        · next hzero => exact (h.take hun hfewer).stop hzero
        · exact ih hrest (h.take hun hfewer)
      · next hfewer => exact ih hrest (h.keep hfewer)

/-- The scan over all cards. -/
theorem scanInv_mostConstrained (options : List BitSet) (placed used : BitSet) :
    ScanInv options placed used options.length (scan placed used 0 none options) :=
  scanInv_scan List.drop_zero fun card _ => Nat.zero_le card

/-! ## The card and its sets -/

theorem mostConstrained_eq_none_iff :
    mostConstrained options placed used = none ↔ unplaced options placed = ∅ := by
  have h := scanInv_mostConstrained options placed used
  rw [mostConstrained, Option.map_eq_none_iff]
  cases hbest : scan placed used 0 none options with
  | none =>
    rw [hbest] at h
    refine ⟨fun _ => Finset.eq_empty_of_forall_notMem fun card hcard => ?_, fun _ => rfl⟩
    have hle := h card hcard
    have hlt := (mem_unplaced.mp hcard).1
    omega
  | some best =>
    rw [hbest] at h
    refine ⟨fun hnone => absurd hnone (Option.some_ne_none best), fun hempty => ?_⟩
    have hmem := h.1.mem
    rw [hempty] at hmem
    exact absurd hmem (Finset.notMem_empty _)

/-- The first card with the fewest sets left is one card. -/
theorem IsFirstFewest.unique {card other : ℕ} (h : IsFirstFewest options placed used bound card)
    (h' : IsFirstFewest options placed used bound other) : card = other := by
  rcases lt_trichotomy card other with hlt | heq | hgt
  · have := h'.count_lt card h.mem hlt
    have := h.count_le other h'.mem h'.lt
    omega
  · exact heq
  · have := h.count_lt other h'.mem hgt
    have := h'.count_le card h.mem h.lt
    omega

/-- **The card that comes next is the first one with the fewest sets left, and comes with these sets.** -/
theorem mostConstrained_eq_some_iff {card : ℕ} {available : BitSet} :
    mostConstrained options placed used = some (card, available) ↔
      IsFirstFewest options placed used options.length card ∧ available = left options used card := by
  have h := scanInv_mostConstrained options placed used
  rw [mostConstrained, Option.map_eq_some_iff]
  constructor
  · rintro ⟨best, hbest, hpair⟩
    rw [hbest] at h
    obtain ⟨rfl, rfl⟩ := Prod.mk.inj hpair
    exact ⟨h.1, h.2.1⟩
  · rintro ⟨hcard, rfl⟩
    cases hbest : scan placed used 0 none options with
    | none =>
      rw [hbest] at h
      have := h card hcard.mem
      have := hcard.lt
      omega
    | some best =>
      rw [hbest] at h
      have heq := h.1.unique hcard
      exact ⟨best, rfl, by rw [h.2.1, heq]⟩

end Search

end DeckLegality
