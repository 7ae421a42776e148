import DeckLegality.Proofs.Search.Calls

/-!
# States entered against choices taken back

Every choice that is taken back belongs to one call below it that failed, and every call enters one state.  So over a
call that fails the states entered are one more than the choices taken back, for the call itself, and over a call that
succeeds they are more by the calls that are still open in the end, one for each card placed.  A stored state that is
met is a call that fails at once, and its choice is taken back too; so the choices taken back outnumber these, but for
the call itself.

`Balanced` says so of a call and of the choices for one card alike.  It does not matter here from which state a call is
made.
-/

namespace DeckLegality

namespace Search

variable {memoize : Bool} {options : List BitSet} {remaining card opened failed : ℕ} {st : State} {result : Bool × State}

/-- The states entered on the way from `st` to the result are more than the choices taken back by `opened` after a
success and by `failed` after a failure.  The stored states met are at most as many as the choices taken back, or by
`failed` more after a failure. -/
structure Balanced (opened failed : ℕ) (st : State) (result : Bool × State) : Prop where
  nodes : result.2.stats.nodesVisited + st.stats.backtracks =
    st.stats.nodesVisited + result.2.stats.backtracks + if result.1 then opened else failed
  memoHits : result.2.stats.memoHits + st.stats.backtracks ≤
    st.stats.memoHits + result.2.stats.backtracks + if result.1 then 0 else failed

/-- A choice that fails is taken back, which makes up for the call below it. -/
theorem balanced_tryEach {next : State → Bool × State} (hnext : ∀ st, Balanced opened 1 st (next st)) (card : ℕ)
    (sets : List ℕ) (st : State) : Balanced opened 0 st (tryEach next card sets st) := by
  induction sets generalizing st with
  | nil => exact ⟨rfl, Nat.le_refl _⟩
  | cons set sets ih =>
    have hbelow := hnext (st.choose card set)
    rw [tryEach]
    split
    · next st' hres =>
      rw [hres] at hbelow
      exact ⟨hbelow.nodes, hbelow.memoHits⟩
    · next st' hres =>
      rw [hres] at hbelow
      -- the choice taken back here makes up for the state that the failed call entered
      have hrest := ih (st'.takeBack set)
      generalize tryEach next card sets (st'.takeBack set) = result at hrest ⊢
      have hnodes : st'.stats.nodesVisited + st.stats.backtracks =
        st.stats.nodesVisited + st'.stats.backtracks + 1 := hbelow.nodes
      have hnodes' : result.2.stats.nodesVisited + (st'.stats.backtracks + 1) =
        st'.stats.nodesVisited + result.2.stats.backtracks + if result.1 then opened else 0 := hrest.nodes
      have hhits : st'.stats.memoHits + st.stats.backtracks ≤
        st.stats.memoHits + st'.stats.backtracks + 1 := hbelow.memoHits
      have hhits' : result.2.stats.memoHits + (st'.stats.backtracks + 1) ≤
        st'.stats.memoHits + result.2.stats.backtracks + if result.1 then 0 else 0 := hrest.memoHits
      exact ⟨by omega, by omega⟩

/-- Taking a card enters one state; a success leaves it open, a failure does not take it back. -/
theorem Takes.balanced (hnext : ∀ st, Balanced remaining 1 st (place memoize options remaining st))
    (h : Takes memoize options remaining st card result) : Balanced remaining 0 (st.visit.take card) result := by
  rw [← h.tried]
  exact balanced_tryEach hnext card _ _

/-- **The balance of a call**: after a success as many states are open as cards were placed, after a failure one. -/
theorem balanced_place (memoize : Bool) (options : List BitSet) (remaining : ℕ) (st : State) :
    Balanced remaining 1 st (place memoize options remaining st) := by
  induction remaining generalizing st with
  | zero => exact ⟨rfl, Nat.le_refl _⟩
  | succ remaining ih =>
    have hends := ends_place memoize options remaining st
    generalize place memoize options (remaining + 1) st = result at hends ⊢
    cases hends with
    | stored => exact ⟨Nat.add_right_comm .., (Nat.add_right_comm ..).le⟩
    | stuck => exact ⟨Nat.add_right_comm .., Nat.le_succ _⟩
    | @found card st' htakes =>
      have hnodes : st'.stats.nodesVisited + st.stats.backtracks =
        st.stats.nodesVisited + 1 + st'.stats.backtracks + remaining := (htakes.balanced ih).nodes
      refine ⟨?_, (htakes.balanced ih).memoHits⟩
      show st'.stats.nodesVisited + st.stats.backtracks =
        st.stats.nodesVisited + st'.stats.backtracks + (remaining + 1)
      omega
    | @gaveUp card st' htakes =>
      have hnodes : st'.stats.nodesVisited + st.stats.backtracks =
        st.stats.nodesVisited + 1 + st'.stats.backtracks := (htakes.balanced ih).nodes
      refine ⟨?_, (htakes.balanced ih).memoHits.trans (Nat.le_succ _)⟩
      show st'.stats.nodesVisited + st.stats.backtracks = st.stats.nodesVisited + st'.stats.backtracks + 1
      omega

/-- A call that is not stopped at once takes back a choice for every stored state that is met. -/
theorem memoHits_place_le (hstored : st.isStored memoize = false) :
    (place memoize options remaining st).2.stats.memoHits + st.stats.backtracks ≤
      st.stats.memoHits + (place memoize options remaining st).2.stats.backtracks := by
  cases remaining with
  | zero => exact Nat.le_refl _
  | succ remaining =>
    have hbelow := balanced_place memoize options remaining
    have hends := ends_place memoize options remaining st
    generalize place memoize options (remaining + 1) st = result at hends ⊢
    cases hends with
    | stored h => exact absurd (hstored.symm.trans h) Bool.false_ne_true
    | stuck => exact Nat.le_refl _
    | found htakes => exact (htakes.balanced hbelow).memoHits
    | gaveUp htakes => exact (htakes.balanced hbelow).memoHits

/-! ## Without memoisation -/

/-- Only the step into a stored state changes the number of stored states met. -/
theorem preserved_memoHits (hits : ℕ) : Preserved false fun st => st.stats.memoHits = hits where
  visit _ h := h
  hit h := nomatch h
  take _ _ h := h
  choose _ _ _ h := h
  takeBack _ _ h := h
  giveUp _ _ h := h

/-- Without memoisation no state is met that is stored. -/
theorem memoHits_place_false (options : List BitSet) (remaining : ℕ) (st : State) :
    (place false options remaining st).2.stats.memoHits = st.stats.memoHits :=
  (preserved_memoHits st.stats.memoHits).place options remaining rfl

end Search

end DeckLegality
