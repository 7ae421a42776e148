import DeckLegality.Proofs.Search.Place
import Mathlib.Logic.Relation

/-!
# The calls of a search

A call of `place` with a card left ends in one of four ways, and `Ends` lists them: the state is stored, no card comes
next, one of the sets of the card that comes next leads to a success, or none does and the card is given up.  What
happens in between is told by `Takes` (a card is taken and its sets are tried, with some result) and by `Calls` (on the
way there the cards after it are placed, once for each set that is tried).

A call is `Ready` if its state is sound and as many cards are left as it is told to place.  One call makes only ready
calls if it is ready itself (`Calls.ready`), so a whole run does (`ready_of_reaches`).

`tryEach_induction` is the induction over the sets of a card that every statement about a call goes through: a failed
choice is taken back and leaves the cards placed and the sets used as they were.  A property that each single change of
the state leaves alone needs less: it is `Preserved`, and then a call leaves it alone (`Preserved.place`).
-/

namespace DeckLegality

namespace Search

variable {memoize : Bool} {options : List BitSet} {remaining card set : ℕ} {st st' : State} {todo : Finset ℕ}

/-- What a state is known by: the cards placed and the sets used. -/
def State.key (st : State) : BitSet × BitSet := (st.placed, st.used)

/-- With memoisation, whether the state is known to be dead. -/
def State.isStored (memoize : Bool) (st : State) : Bool := memoize && st.failed.contains st.key

/-! ## How a call ends -/

/-- The call is not stopped, takes `card`, and the sets that are left for it are tried with the given result. -/
structure Takes (memoize : Bool) (options : List BitSet) (remaining : ℕ) (st : State) (card : ℕ)
    (result : Bool × State) : Prop where
  not_stored : st.isStored memoize = false
  next : mostConstrained options st.placed st.used = some (card, left options st.used card)
  tried : tryEach (place memoize options remaining) card (left options st.used card).toList (st.visit.take card) = result

/-- The ends of a call with a card left to place. -/
inductive Ends (memoize : Bool) (options : List BitSet) (remaining : ℕ) (st : State) : Bool × State → Prop
  | stored (h : st.isStored memoize = true) : Ends memoize options remaining st (false, st.visit.hit)
  | stuck (h : mostConstrained options st.placed st.used = none) : Ends memoize options remaining st (false, st.visit)
  | found {card : ℕ} {st' : State} (h : Takes memoize options remaining st card (true, st')) :
    Ends memoize options remaining st (true, st')
  | gaveUp {card : ℕ} {st' : State} (h : Takes memoize options remaining st card (false, st')) :
    Ends memoize options remaining st (false, st'.giveUp memoize card)

/-- **Every call with a card left ends in one of these ways.** -/
theorem ends_place (memoize : Bool) (options : List BitSet) (remaining : ℕ) (st : State) :
    Ends memoize options remaining st (place memoize options (remaining + 1) st) := by
  rw [place]
  split
  · next hstored => exact .stored hstored
  · next hstored =>
    have hnot : st.isStored memoize = false := Bool.eq_false_iff.mpr hstored
    split
    · next hnext => exact .stuck hnext
    · next card available hnext =>
      obtain rfl := (mostConstrained_eq_some_iff.mp hnext).2
      split
      · next st' htry => exact .found ⟨hnot, hnext, htry⟩
      · next st' htry => exact .gaveUp ⟨hnot, hnext, htry⟩

/-- Only one card is taken, and trying its sets has one result. -/
theorem Takes.unique {card' : ℕ} {result result' : Bool × State} (h : Takes memoize options remaining st card result)
    (h' : Takes memoize options remaining st card' result') : card = card' ∧ result = result' := by
  obtain rfl : card = card' := congrArg Prod.fst (Option.some.inj (h.next.symm.trans h'.next))
  exact ⟨rfl, h.tried.symm.trans h'.tried⟩

/-- If all sets of the card fail, the call gives the card up. -/
theorem Takes.place_eq (h : Takes memoize options remaining st card (false, st')) :
    place memoize options (remaining + 1) st = (false, st'.giveUp memoize card) := by
  have hends := ends_place memoize options remaining st
  generalize place memoize options (remaining + 1) st = result at hends ⊢
  cases hends with
  | stored hstored => exact absurd (h.not_stored.symm.trans hstored) Bool.false_ne_true
  | stuck hnone => exact absurd (h.next.symm.trans hnone) (Option.some_ne_none _)
  | found htakes => exact absurd (congrArg Prod.fst (h.unique htakes).2) Bool.false_ne_true
  | gaveUp htakes =>
    obtain ⟨rfl, heq⟩ := h.unique htakes
    rw [(Prod.mk.inj heq).2]

/-! ## Properties that no step loses -/

/-- No change that the search makes to a state loses the property. -/
structure Preserved (memoize : Bool) (P : State → Prop) : Prop where
  visit : ∀ st, P st → P st.visit
  hit : memoize = true → ∀ st, P st → P st.hit
  take : ∀ st card, P st → P (st.take card)
  choose : ∀ st card set, P st → P (st.choose card set)
  takeBack : ∀ st set, P st → P (st.takeBack set)
  giveUp : ∀ st card, P st → P (st.giveUp memoize card)

namespace Preserved

variable {P : State → Prop} {result : Bool × State}

theorem tryEach (h : Preserved memoize P) {next : State → Bool × State} (hnext : ∀ st, P st → P (next st).2)
    (card : ℕ) (sets : List ℕ) {st : State} (hst : P st) : P (Search.tryEach next card sets st).2 := by
  induction sets generalizing st with
  | nil => exact hst
  | cons set sets ih =>
    have hbelow := hnext _ (h.choose st card set hst)
    rw [Search.tryEach]
    split
    · next st' hres => rwa [hres] at hbelow
    · next st' hres =>
      rw [hres] at hbelow
      exact ih (h.takeBack st' set hbelow)

theorem takes (h : Preserved memoize P) (hnext : ∀ st, P st → P (place memoize options remaining st).2)
    (htakes : Takes memoize options remaining st card result) (hst : P st) : P result.2 := by
  rw [← htakes.tried]
  exact h.tryEach hnext card _ (h.take _ card (h.visit st hst))

/-- **What no step loses, no call loses.** -/
theorem place (h : Preserved memoize P) (options : List BitSet) (remaining : ℕ) {st : State} (hst : P st) :
    P (Search.place memoize options remaining st).2 := by
  induction remaining generalizing st with
  | zero => exact hst
  | succ remaining ih =>
    have hends := ends_place memoize options remaining st
    generalize Search.place memoize options (remaining + 1) st = result at hends ⊢
    cases hends with
    | stored hstored => exact h.hit (Bool.and_eq_true_iff.mp hstored).1 _ (h.visit st hst)
    | stuck => exact h.visit st hst
    | found htakes => exact h.takes (fun _ => ih) htakes hst
    | gaveUp htakes => exact h.giveUp _ _ (h.takes (fun _ => ih) htakes hst)

end Preserved

/-! ## Trying the sets of a card -/

/-- After a choice that failed the search goes on in a sound state, with the cards placed and the sets used before. -/
theorem Sound.resume {next : State → Bool × State} {below : BitSet → Option (ℕ → ℕ)} {placed : BitSet}
    (hnext : ∀ st, Sound options st → st.placed = placed → Outcome options todo st (below st.used) (next st))
    (hst : Sound options st) (hplaced : st.placed = placed) (hset : st.used.contains set = false)
    (hfail : next (st.choose card set) = (false, st')) :
    Sound options (st'.takeBack set) ∧ (st'.takeBack set).placed = placed ∧ (st'.takeBack set).used = st.used := by
  have hout := hnext (st.choose card set) (hst.choose card set) hplaced
  rw [hfail] at hout
  rw [hout.eq_none rfl] at hout
  obtain ⟨hplaced', hused'⟩ := hout.takeBack hset
  exact ⟨hout.sound.takeBack set, hplaced'.trans hplaced, hused'⟩

/-- Trying sets in turn, one step after the other: the first set that leads to a success ends it; a set that does not
is taken back, and the next one is tried with the same cards placed and the same sets used. -/
theorem tryEach_induction {next : State → Bool × State} {below : BitSet → Option (ℕ → ℕ)} {placed : BitSet}
    {motive : List ℕ → State → Bool × State → Prop}
    (hnext : ∀ st, Sound options st → st.placed = placed → Outcome options todo st (below st.used) (next st))
    (nil : ∀ st, motive [] st (false, st))
    (success : ∀ set sets st st', Sound options (st.choose card set) → st.placed = placed →
      next (st.choose card set) = (true, st') → motive (set :: sets) st (true, st'))
    (failure : ∀ set sets st st' result, Sound options (st.choose card set) → st.placed = placed →
      next (st.choose card set) = (false, st') → (st'.takeBack set).used = st.used →
        motive sets (st'.takeBack set) result → motive (set :: sets) st result)
    {sets : List ℕ} {st : State} (hst : Sound options st) (hplaced : st.placed = placed)
    (hfresh : ∀ set ∈ sets, st.used.contains set = false) : motive sets st (tryEach next card sets st) := by
  induction sets generalizing st with
  | nil => exact nil st
  | cons set sets ih =>
    obtain ⟨hset, hrest⟩ := List.forall_mem_cons.mp hfresh
    have hchoose := hst.choose card set
    rw [tryEach]
    split
    · next st' hres => exact success set sets st st' hchoose hplaced hres
    · next st' hres =>
      obtain ⟨hsound', hplaced', hused'⟩ := hst.resume hnext hplaced hset hres
      refine failure set sets st st' _ hchoose hplaced hres hused' ?_
      exact ih hsound' hplaced' (by rwa [hused'])

/-! ## Ready calls -/

/-- The state is sound, and the cards that are left are as many as are to be placed. -/
structure Ready (options : List BitSet) (remaining : ℕ) (st : State) : Prop where
  sound : Sound options st
  remaining_eq : remaining = (unplaced options st.placed).card

/-- With a card left to place a ready call is not stuck. -/
theorem Ready.mostConstrained_ne_none (h : Ready options (remaining + 1) st) :
    mostConstrained options st.placed st.used ≠ none := by
  obtain ⟨card, hnext, -⟩ := exists_mostConstrained st.used h.remaining_eq
  rw [hnext]
  exact Option.some_ne_none _

namespace Takes

variable {result : Bool × State}

theorem mem_unplaced (h : Takes memoize options remaining st card result) : card ∈ unplaced options st.placed :=
  (mostConstrained_eq_some_iff.mp h.next).1.mem

/-- The sets that are tried are not used. -/
theorem fresh {set : ℕ} (hset : set ∈ (left options st.used card).toList) : st.used.contains set = false :=
  not_used_of_contains_left (BitSet.mem_toList.mp hset)

/-- A call after the card is taken is ready if its state is sound and no other card was placed. -/
theorem ready_below (h : Takes memoize options remaining st card result) (hst : Ready options (remaining + 1) st)
    {st₁ : State} (hsound : Sound options st₁) (hplaced : st₁.placed = st.placed.insert card) :
    Ready options remaining st₁ := by
  have hcount := card_unplaced_insert hst.sound.room h.mem_unplaced
  have hremaining := hst.remaining_eq
  exact ⟨hsound, by rw [hplaced]; omega⟩

/-- What placing the cards after the one that is taken does. -/
theorem outcome_below (h : Takes memoize options remaining st card result) (hst : Ready options (remaining + 1) st)
    (st₁ : State) (hsound : Sound options st₁) (hplaced : st₁.placed = st.placed.insert card) :
    Outcome options (unplaced options (st.placed.insert card)) st₁
      (firstCompletion options remaining (st.placed.insert card) st₁.used) (place memoize options remaining st₁) :=
  (outcome_place memoize options remaining).below hst.sound.room hst.remaining_eq h.mem_unplaced hsound hplaced

/-- What trying the sets of the card does. -/
theorem outcome (h : Takes memoize options remaining st card result) (hst : Ready options (remaining + 1) st) :
    Outcome options (unplaced options st.placed) (st.visit.take card)
      (firstCompletion options (remaining + 1) st.placed st.used) result := by
  rw [← h.tried]
  exact outcome_tryEach_place (outcome_place memoize options remaining) hst.sound.visit hst.remaining_eq h.next
    h.mem_unplaced

/-- A card that is given up is given up in the state in which it was taken. -/
theorem key_giveUp (h : Takes memoize options remaining st card (false, st')) (hst : Ready options (remaining + 1) st) :
    (st'.giveUp memoize card).key = st.key := by
  have hout := h.outcome hst
  have hplaced : st'.placed = st.placed.insert card := hout.placed_of_none (hout.eq_none rfl)
  have hused : st'.used = st.used := hout.used_of_none (hout.eq_none rfl)
  have hcard : st.placed.contains card = false := (Search.mem_unplaced.mp h.mem_unplaced).2
  rw [State.key, State.giveUp, State.key, hplaced, hused, BitSet.erase_insert hcard]

end Takes

/-! ## Calls below a call -/

/-- Trying the sets of a card from `st` on goes on with the cards after it from `st₁`. -/
inductive Chooses (next : State → Bool × State) (card : ℕ) : List ℕ → State → State → Prop
  | first {set : ℕ} {sets : List ℕ} {st : State} : Chooses next card (set :: sets) st (st.choose card set)
  | later {set : ℕ} {sets : List ℕ} {st st' st₁ : State} (hfail : next (st.choose card set) = (false, st'))
    (h : Chooses next card sets (st'.takeBack set) st₁) : Chooses next card (set :: sets) st st₁

/-- A call and the calls that it makes itself, each with the number of cards that it is to place. -/
inductive Calls (memoize : Bool) (options : List BitSet) : ℕ × State → ℕ × State → Prop
  | below {remaining card : ℕ} {st st₁ : State} {result : Bool × State}
    (h : Takes memoize options remaining st card result)
    (hchoose : Chooses (place memoize options remaining) card (left options st.used card).toList (st.visit.take card)
      st₁) : Calls memoize options (remaining + 1, st) (remaining, st₁)

/-- After a choice the state is sound, and the card is placed in addition to those before. -/
theorem Chooses.sound {next : State → Bool × State} {below : BitSet → Option (ℕ → ℕ)} {placed : BitSet}
    (hnext : ∀ st, Sound options st → st.placed = placed → Outcome options todo st (below st.used) (next st))
    {sets : List ℕ} {st st₁ : State} (h : Chooses next card sets st st₁) (hst : Sound options st)
    (hplaced : st.placed = placed) (hfresh : ∀ set ∈ sets, st.used.contains set = false) :
    Sound options st₁ ∧ st₁.placed = placed := by
  induction h with
  | first => exact ⟨hst.choose card _, hplaced⟩
  | @later set sets st st' st₁ hfail _ ih =>
    obtain ⟨hset, hrest⟩ := List.forall_mem_cons.mp hfresh
    obtain ⟨hsound', hplaced', hused'⟩ := hst.resume hnext hplaced hset hfail
    exact ih hsound' hplaced' (by rwa [hused'])

/-- **A ready call makes ready calls.** -/
theorem Calls.ready {call call' : ℕ × State} (h : Calls memoize options call call')
    (hcall : Ready options call.1 call.2) : Ready options call'.1 call'.2 := by
  obtain ⟨htakes, hchoose⟩ := h
  obtain ⟨hsound, hplaced⟩ := hchoose.sound (htakes.outcome_below hcall) (hcall.sound.visit.take _) rfl
    fun _ => Takes.fresh
  exact htakes.ready_below hcall hsound hplaced

/-- **All calls of a run are ready**, if the first one is. -/
theorem ready_of_reaches {call call' : ℕ × State} (h : Relation.ReflTransGen (Calls memoize options) call call')
    (hcall : Ready options call.1 call.2) : Ready options call'.1 call'.2 := by
  induction h with
  | refl => exact hcall
  | tail _ hstep ih => exact hstep.ready ih

end Search

end DeckLegality
