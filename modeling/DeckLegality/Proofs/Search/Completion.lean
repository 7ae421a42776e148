import DeckLegality.Pairing.Search
import Mathlib.Data.Finset.Card
import Mathlib.Data.Finset.Range
import Mathlib.Data.Set.Function
import Mathlib.Logic.Function.Basic

/-!
# Completions of a search state

A search state is a set of cards that are placed and a set of sets that are used.  What matters about it is
whether the other cards can still be served: a *completion* gives each of them a set that is left for it, and
never one set to two of them.  A state without a completion is *dead*.

Nothing here looks at how the search goes about its work.  The one fact the search lives on is
`completes_update_iff`: to complete a state is to choose a set that is left for some card, whichever card that
is, and to complete the state in which the card is placed and the set is used.  Read from right to left it says
that an answer found below a choice is an answer; read from left to right, that a state in which every choice
for one card is dead is itself dead (`dead_iff_forall`).
-/

namespace DeckLegality

namespace Search

/-- The cards that are not placed. -/
def unplaced (options : List BitSet) (placed : BitSet) : Finset ℕ :=
  {card ∈ Finset.range options.length | placed.contains card = false}

/-- The sets that are left for a card. -/
def left (options : List BitSet) (used : BitSet) (card : ℕ) : BitSet :=
  (options.getD card default).difference used

/-- `f` gives every card that is not placed a set that is left for it, and no two of them the same one. -/
structure Completes (options : List BitSet) (placed used : BitSet) (f : ℕ → ℕ) : Prop where
  contains : ∀ card ∈ unplaced options placed, (left options used card).contains (f card) = true
  injOn : Set.InjOn f (unplaced options placed)

/-- No completion exists. -/
def Dead (options : List BitSet) (placed used : BitSet) : Prop :=
  ∀ f, ¬ Completes options placed used f

/-- There is room for every card among the cards placed, and for every option among the sets used. -/
structure HasRoom (options : List BitSet) (placed used : BitSet) : Prop where
  card_lt : options.length ≤ placed.capacity
  set_lt : ∀ mask ∈ options, ∀ set, mask.contains set = true → set < used.capacity

variable {options : List BitSet} {placed used : BitSet} {card set : ℕ}

/-! ## Unplaced cards -/

@[simp] theorem mem_unplaced :
    card ∈ unplaced options placed ↔ card < options.length ∧ placed.contains card = false := by
  rw [unplaced, Finset.mem_filter, Finset.mem_range]

theorem unplaced_insert (hroom : HasRoom options placed used) (hcard : card ∈ unplaced options placed) :
    unplaced options (placed.insert card) = (unplaced options placed).erase card := by
  have hlt : card < placed.capacity := lt_of_lt_of_le (mem_unplaced.mp hcard).1 hroom.card_lt
  ext other
  rw [Finset.mem_erase, mem_unplaced, mem_unplaced, BitSet.contains_insert hlt]
  by_cases h : other = card <;> simp [h]

theorem mem_unplaced_insert (hroom : HasRoom options placed used) (hcard : card ∈ unplaced options placed)
    {other : ℕ} :
    other ∈ unplaced options (placed.insert card) ↔ other ≠ card ∧ other ∈ unplaced options placed := by
  rw [unplaced_insert hroom hcard, Finset.mem_erase]

theorem insert_unplaced_insert (hroom : HasRoom options placed used)
    (hcard : card ∈ unplaced options placed) :
    insert card (unplaced options (placed.insert card)) = unplaced options placed := by
  rw [unplaced_insert hroom hcard, Finset.insert_erase hcard]

/-- Placing a card leaves one card less. -/
theorem card_unplaced_insert (hroom : HasRoom options placed used)
    (hcard : card ∈ unplaced options placed) :
    (unplaced options (placed.insert card)).card + 1 = (unplaced options placed).card := by
  rw [unplaced_insert hroom hcard, Finset.card_erase_add_one hcard]

/-! ## Sets that are left -/

theorem contains_left :
    (left options used card).contains set =
      ((options.getD card default).contains set && !used.contains set) := by
  rw [left, BitSet.contains_difference]

/-- A set that is left is not used. -/
theorem not_used_of_contains_left (h : (left options used card).contains set = true) :
    used.contains set = false := by
  rw [contains_left, Bool.and_eq_true] at h
  simpa using h.2

theorem HasRoom.lt_of_contains_left (hroom : HasRoom options placed used)
    (h : (left options used card).contains set = true) : set < used.capacity := by
  rw [contains_left, Bool.and_eq_true] at h
  have hmask := h.1
  rw [List.getD_eq_getElem?_getD] at hmask
  cases hc : options[card]? with
  | none =>
    rw [hc, Option.getD_none] at hmask
    exact absurd hmask (by simp [default])
  | some mask =>
    rw [hc, Option.getD_some] at hmask
    exact hroom.set_lt mask (List.mem_of_getElem? hc) set hmask

/-- Using one more set takes that set, and only that one, away from every card. -/
theorem contains_left_insert (hset : set < used.capacity) (other t : ℕ) :
    (left options (used.insert set) other).contains t = true ↔
      (left options used other).contains t = true ∧ t ≠ set := by
  rw [contains_left, contains_left, BitSet.contains_insert hset]
  by_cases h : t = set <;> simp [h]

/-! ## Room -/

theorem HasRoom.insert_card (hroom : HasRoom options placed used) (card : ℕ) :
    HasRoom options (placed.insert card) used :=
  ⟨by rw [BitSet.capacity_insert]; exact hroom.card_lt, hroom.set_lt⟩

theorem HasRoom.insert_set (hroom : HasRoom options placed used) (set : ℕ) :
    HasRoom options placed (used.insert set) :=
  ⟨hroom.card_lt, by rw [BitSet.capacity_insert]; exact hroom.set_lt⟩

/-! ## One choice -/

/-- Below a choice a completion goes on as one. -/
theorem Completes.below {f : ℕ → ℕ} (hroom : HasRoom options placed used)
    (hcard : card ∈ unplaced options placed)
    (h : Completes options placed used (Function.update f card set)) :
    (left options used card).contains set = true ∧
      Completes options (placed.insert card) (used.insert set) f := by
  have hset : (left options used card).contains set = true := by
    simpa using h.contains card hcard
  refine ⟨hset, ⟨?_, ?_⟩⟩
  · intro other hother
    obtain ⟨hne, hun⟩ := (mem_unplaced_insert hroom hcard).mp hother
    have hleft := h.contains other hun
    rw [Function.update_of_ne hne] at hleft
    refine (contains_left_insert (hroom.lt_of_contains_left hset) other _).mpr ⟨hleft, ?_⟩
    intro heq
    -- another card with the same set would break injectivity
    exact hne (h.injOn hun hcard (by rw [Function.update_of_ne hne, Function.update_self, heq]))
  · intro a ha b hb hab
    obtain ⟨hane, hau⟩ := (mem_unplaced_insert hroom hcard).mp ha
    obtain ⟨hbne, hbu⟩ := (mem_unplaced_insert hroom hcard).mp hb
    exact h.injOn hau hbu (by rwa [Function.update_of_ne hane, Function.update_of_ne hbne])

/-- A completion below a choice is one with the choice. -/
theorem Completes.update {f : ℕ → ℕ} (hroom : HasRoom options placed used)
    (hcard : card ∈ unplaced options placed) (hset : (left options used card).contains set = true)
    (h : Completes options (placed.insert card) (used.insert set) f) :
    Completes options placed used (Function.update f card set) := by
  have hrest : ∀ other ∈ unplaced options placed, other ≠ card →
      (left options used other).contains (f other) = true ∧ f other ≠ set := by
    intro other hun hne
    exact (contains_left_insert (hroom.lt_of_contains_left hset) other _).mp
      (h.contains other ((mem_unplaced_insert hroom hcard).mpr ⟨hne, hun⟩))
  refine ⟨?_, ?_⟩
  · intro other hun
    by_cases hne : other = card
    · rw [hne, Function.update_self]
      exact hset
    · rw [Function.update_of_ne hne]
      exact (hrest other hun hne).1
  · intro a ha b hb hab
    by_cases hac : a = card
    · by_cases hbc : b = card
      · rw [hac, hbc]
      · rw [hac, Function.update_self, Function.update_of_ne hbc] at hab
        exact absurd hab.symm (hrest b hb hbc).2
    · by_cases hbc : b = card
      · rw [hbc, Function.update_self, Function.update_of_ne hac] at hab
        exact absurd hab (hrest a ha hac).2
      · rw [Function.update_of_ne hac, Function.update_of_ne hbc] at hab
        exact h.injOn ((mem_unplaced_insert hroom hcard).mpr ⟨hac, ha⟩)
          ((mem_unplaced_insert hroom hcard).mpr ⟨hbc, hb⟩) hab

/-- A completion that gives `set` to `card` is a set that is left for the card together with a completion of the
state after that choice. -/
theorem completes_update_iff (hroom : HasRoom options placed used)
    (hcard : card ∈ unplaced options placed) (f : ℕ → ℕ) :
    Completes options placed used (Function.update f card set) ↔
      (left options used card).contains set = true ∧
        Completes options (placed.insert card) (used.insert set) f := by
  constructor
  · exact fun h => h.below hroom hcard
  · rintro ⟨hset, h⟩
    exact h.update hroom hcard hset

/-- **A state is dead exactly when every choice for one of its cards is.**  Which card that is does not matter. -/
theorem dead_iff_forall (hroom : HasRoom options placed used) (hcard : card ∈ unplaced options placed) :
    Dead options placed used ↔ ∀ set, (left options used card).contains set = true →
      Dead options (placed.insert card) (used.insert set) := by
  constructor
  · intro hdead set hset f hf
    exact hdead _ ((completes_update_iff hroom hcard f).mpr ⟨hset, hf⟩)
  · intro h f hf
    rw [← Function.update_eq_self card f] at hf
    obtain ⟨hset, hrest⟩ := (completes_update_iff hroom hcard f).mp hf
    exact h _ hset f hrest

/-- When every card is placed, there is nothing left to complete. -/
theorem completes_of_unplaced_eq_empty (h : unplaced options placed = ∅) (f : ℕ → ℕ) :
    Completes options placed used f := by
  refine ⟨fun card hcard => ?_, fun a ha => ?_⟩
  · rw [h] at hcard
    exact absurd hcard (Finset.notMem_empty card)
  · rw [h] at ha
    exact absurd ha (Finset.notMem_empty a)

end Search

end DeckLegality
