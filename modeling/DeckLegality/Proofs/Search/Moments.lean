import DeckLegality.Proofs.Search.Calls

/-!
# The states that a search goes through

All calls of a search work on one state.  `Moment` lists the states that one call goes through itself: the one in which it
begins, the same once it is counted, those from which the sets of the card that it takes are tried one after the other, and
the one in which it ends.  Between two of these the calls that it makes go through theirs.

A state that is stored is dead at each of these moments (`Moment.sound`).  This cannot be said of the moment of storing
alone: that the state is dead then is known because everything below it was searched, and part of that was cut short where
a stored state was met.  So the states stored are dead by the same induction by which the search is complete, which is the
one in `outcome_place`; all that is left to do here is to follow a call from one moment to the next.

Whether a call fails depends on the cards placed and the sets used alone (`Ready.fst_place_eq_false_iff`).  So nothing is
lost where a call stops at a stored state, whichever way led there.
-/

namespace DeckLegality

namespace Search

variable {memoize : Bool} {options : List BitSet} {remaining card : ℕ} {st st₁ : State} {todo : Finset ℕ}

/-! ## From moment to moment -/

/-- Trying the sets of a card from `st` on resumes from `st₁`: the sets before were tried in vain and are taken back. -/
inductive Resumes (next : State → Bool × State) (card : ℕ) : List ℕ → State → State → Prop
  | first {sets : List ℕ} {st : State} : Resumes next card sets st st
  | later {set : ℕ} {sets : List ℕ} {st st' st₁ : State} (hfail : next (st.choose card set) = (false, st'))
    (h : Resumes next card sets (st'.takeBack set) st₁) : Resumes next card (set :: sets) st st₁

/-- The states that a call goes through, apart from those of the calls that it makes. -/
inductive Moment (memoize : Bool) (options : List BitSet) : ℕ × State → State → Prop
  | start {remaining : ℕ} {st : State} : Moment memoize options (remaining, st) st
  | visit {remaining : ℕ} {st : State} : Moment memoize options (remaining + 1, st) st.visit
  | resume {remaining card : ℕ} {st st₁ : State} {result : Bool × State}
    (h : Takes memoize options remaining st card result)
    (hresume : Resumes (place memoize options remaining) card (left options st.used card).toList (st.visit.take card) st₁) :
    Moment memoize options (remaining + 1, st) st₁
  | finish {remaining : ℕ} {st : State} :
    Moment memoize options (remaining, st) (place memoize options remaining st).2

/-- Each time the search resumes its state is sound. -/
theorem Resumes.sound {next : State → Bool × State} {below : BitSet → Option (ℕ → ℕ)} {placed : BitSet}
    (hnext : ∀ st, Sound options st → st.placed = placed → Outcome options todo st (below st.used) (next st))
    {sets : List ℕ} (h : Resumes next card sets st st₁) (hst : Sound options st) (hplaced : st.placed = placed)
    (hfresh : ∀ set ∈ sets, st.used.contains set = false) : Sound options st₁ := by
  induction h with
  | first => exact hst
  | @later set sets st st' st₁ hfail _ ih =>
    obtain ⟨hset, hrest⟩ := List.forall_mem_cons.mp hfresh
    obtain ⟨hsound', hplaced', hused'⟩ := hst.resume hnext hplaced hset hfail
    exact ih hsound' hplaced' (by rwa [hused'])

/-- **Whatever state a ready call goes through is sound.** -/
theorem Moment.sound {call : ℕ × State} (h : Moment memoize options call st₁) (hcall : Ready options call.1 call.2) :
    Sound options st₁ := by
  cases h with
  | start => exact hcall.sound
  | visit => exact hcall.sound.visit
  | resume htakes hresume =>
    exact hresume.sound (htakes.outcome_below hcall) (hcall.sound.visit.take _) rfl fun _ => Takes.fresh
  | finish => exact (outcome_place _ _ _ _ hcall.sound hcall.remaining_eq).sound

/-! ## What a call comes to -/

/-- A ready call fails exactly in a dead state, with memoisation and without. -/
theorem Ready.fst_place_eq_false_iff (h : Ready options remaining st) (memoize : Bool) :
    (place memoize options remaining st).1 = false ↔ Dead options st.placed st.used := by
  have hout := outcome_place memoize options remaining st h.sound h.remaining_eq
  rw [← firstCompletion_eq_none_iff h.sound.room h.remaining_eq, hout.fst_eq, Option.isSome_eq_false_iff,
    Option.isNone_iff_eq_none]

/-- Memoisation does not change what a ready call comes to. -/
theorem Ready.fst_place_eq (h : Ready options remaining st) (memoize memoize' : Bool) :
    (place memoize options remaining st).1 = (place memoize' options remaining st).1 := by
  rw [← Bool.not_inj_iff, ← Bool.coe_false_iff_false, h.fst_place_eq_false_iff, h.fst_place_eq_false_iff]

/-- A stored state is dead. -/
theorem Sound.dead_of_isStored (h : Sound options st) (hstored : st.isStored memoize = true) :
    Dead options st.placed st.used :=
  h.dead st.key (Bool.and_eq_true_iff.mp hstored).2

/-- In a stored state some card is left to place, and the call fails at once. -/
theorem Ready.place_of_isStored (h : Ready options remaining st) (hstored : st.isStored memoize = true) :
    place memoize options remaining st = (false, st.visit.hit) := by
  have hdead := h.sound.dead_of_isStored hstored
  cases remaining with
  | zero =>
    have hempty : unplaced options st.placed = ∅ := Finset.card_eq_zero.mp h.remaining_eq.symm
    exact absurd (completes_of_unplaced_eq_empty hempty fun _ => 0) (hdead _)
  | succ remaining =>
    rw [place]
    exact if_pos hstored

end Search

end DeckLegality
