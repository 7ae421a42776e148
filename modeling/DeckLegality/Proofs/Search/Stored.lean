import DeckLegality.Proofs.Search.Calls

/-!
# Every dead state is stored once

With memoisation a call that gives a card up stores the state in which it took the card.  The calls below it have more
cards placed, and so has every state that they store (`Accounted.stored_or`); and the state itself was not stored when
the call began, since the call went on.  So the state is new when it is stored (`Takes.not_stored_giveUp`).

This accounts for every state that is entered: it is stored before, or stored afterwards, or the search succeeds from
it, and then it is one of as many states as cards were placed (`Accounted.nodes`).

`Stores` tells which states are stored in the course of a run, and when.  Each of them is new (`Stores.not_stored`).  In
the end a state is stored if it was at the beginning or if the run stored it (`contains_failed_place_iff`).
-/

namespace DeckLegality

namespace Search

variable {options : List BitSet} {remaining card : ℕ} {st st' : State} {todo : Finset ℕ} {result : Bool × State}

/-- What is stored on the way from `st` to the result has no more than `remaining` cards left, and the states entered on
the way are those that were met stored, those that are stored and, after a success, `remaining` more. -/
structure Accounted (options : List BitSet) (remaining : ℕ) (st : State) (result : Bool × State) : Prop where
  stored_or : ∀ key, result.2.failed.contains key = true →
    st.failed.contains key = true ∨ (unplaced options key.1).card ≤ remaining
  nodes : result.2.stats.nodesVisited + st.stats.memoHits + st.failed.size =
    st.stats.nodesVisited + result.2.stats.memoHits + result.2.failed.size + if result.1 then remaining else 0

theorem accounted_tryEach {next : State → Bool × State} {below : BitSet → Option (ℕ → ℕ)} {placed : BitSet}
    (hnext : ∀ st, Sound options st → st.placed = placed →
      Outcome options todo st (below st.used) (next st) ∧ Accounted options remaining st (next st))
    {sets : List ℕ} (hst : Sound options st) (hplaced : st.placed = placed)
    (hfresh : ∀ set ∈ sets, st.used.contains set = false) :
    Accounted options remaining st (tryEach next card sets st) := by
  refine tryEach_induction (motive := fun _ st result => Accounted options remaining st result)
    (fun st hst hplaced => (hnext st hst hplaced).1) ?nil ?success ?failure hst hplaced hfresh
  case nil => exact fun st => ⟨fun _ => Or.inl, rfl⟩
  case success =>
    intro set sets st st' hchoose hplaced hres
    have hbelow := (hnext _ hchoose hplaced).2
    rw [hres] at hbelow
    exact ⟨hbelow.stored_or, hbelow.nodes⟩
  case failure =>
    intro set sets st st' result hchoose hplaced hres _ hrest
    have hbelow := (hnext _ hchoose hplaced).2
    rw [hres] at hbelow
    have hnodes : st'.stats.nodesVisited + st.stats.memoHits + st.failed.size =
      st.stats.nodesVisited + st'.stats.memoHits + st'.failed.size := hbelow.nodes
    have hnodes' : result.2.stats.nodesVisited + st'.stats.memoHits + st'.failed.size =
      st'.stats.nodesVisited + result.2.stats.memoHits + result.2.failed.size + if result.1 then remaining else 0 :=
      hrest.nodes
    exact ⟨fun key hkey => (hrest.stored_or key hkey).elim (hbelow.stored_or key) Or.inr, by omega⟩

/-- What every call with the given number of cards left does. -/
def AllAccounted (options : List BitSet) (remaining : ℕ) : Prop :=
  ∀ st, Ready options remaining st → Accounted options remaining st (place true options remaining st)

namespace Takes

theorem accounted (h : Takes true options remaining st card result) (hbelow : AllAccounted options remaining)
    (hst : Ready options (remaining + 1) st) : Accounted options remaining (st.visit.take card) result := by
  have hnext := fun st₁ hsound hplaced => And.intro (h.outcome_below hst st₁ hsound hplaced)
    (hbelow st₁ (h.ready_below hst hsound hplaced))
  rw [← h.tried]
  exact accounted_tryEach hnext (hst.sound.visit.take card) rfl fun _ => Takes.fresh

/-- The state in which a card was taken is not stored by the calls below: it has one card more left than they. -/
theorem contains_key_eq_false (h : Takes true options remaining st card result) (hbelow : AllAccounted options remaining)
    (hst : Ready options (remaining + 1) st) : result.2.failed.contains st.key = false := by
  refine Bool.eq_false_iff.mpr fun hkey => ?_
  rcases (h.accounted hbelow hst).stored_or st.key hkey with hbefore | hle
  · exact Bool.false_ne_true (h.not_stored.symm.trans hbefore)
  · have hremaining : remaining + 1 = (unplaced options st.key.1).card := hst.remaining_eq
    omega

/-- Giving the card up stores one more state, which makes up for the state that was entered. -/
theorem accounted_giveUp (h : Takes true options remaining st card (false, st')) (hbelow : AllAccounted options remaining)
    (hst : Ready options (remaining + 1) st) :
    Accounted options (remaining + 1) st (false, st'.giveUp true card) := by
  obtain ⟨hstored, hnodes⟩ := h.accounted hbelow hst
  have hfailed : (st'.giveUp true card).failed = st'.failed.insert st.key := by
    rw [← h.key_giveUp hst]
    rfl
  refine ⟨fun key => ?_, ?_⟩
  · rw [hfailed, Std.HashSet.contains_insert, Bool.or_eq_true, beq_iff_eq]
    rintro (rfl | hkey)
    · exact Or.inr hst.remaining_eq.ge
    · exact (hstored key hkey).imp_right Nat.le_succ_of_le
  · -- the state is not stored yet, so one more is stored now
    have hnew : st.key ∉ st'.failed := fun hmem =>
      Bool.false_ne_true ((h.contains_key_eq_false hbelow hst).symm.trans (Std.HashSet.mem_iff_contains.mp hmem))
    have hnodes : st'.stats.nodesVisited + st.stats.memoHits + st.failed.size =
      st.stats.nodesVisited + 1 + st'.stats.memoHits + st'.failed.size := hnodes
    show st'.stats.nodesVisited + st.stats.memoHits + st.failed.size =
      st.stats.nodesVisited + st'.stats.memoHits + (st'.giveUp true card).failed.size
    rw [hfailed, Std.HashSet.size_insert, if_neg hnew]
    omega

end Takes

/-- **The account of a call.** -/
theorem accounted_place (options : List BitSet) (remaining : ℕ) : AllAccounted options remaining := by
  induction remaining with
  | zero => exact fun st _ => ⟨fun _ => Or.inl, rfl⟩
  | succ remaining ih =>
    intro st hst
    have hends := ends_place true options remaining st
    generalize place true options (remaining + 1) st = result at hends ⊢
    cases hends with
    | stored =>
      refine ⟨fun _ => Or.inl, ?_⟩
      show st.stats.nodesVisited + 1 + st.stats.memoHits + st.failed.size =
        st.stats.nodesVisited + (st.stats.memoHits + 1) + st.failed.size
      omega
    | stuck h => exact absurd h hst.mostConstrained_ne_none
    | @found card st' htakes =>
      obtain ⟨hstored, hnodes⟩ := htakes.accounted ih hst
      refine ⟨fun key hkey => (hstored key hkey).imp_right Nat.le_succ_of_le, ?_⟩
      have hnodes : st'.stats.nodesVisited + st.stats.memoHits + st.failed.size =
        st.stats.nodesVisited + 1 + st'.stats.memoHits + st'.failed.size + remaining := hnodes
      show st'.stats.nodesVisited + st.stats.memoHits + st.failed.size =
        st.stats.nodesVisited + st'.stats.memoHits + st'.failed.size + (remaining + 1)
      omega
    | gaveUp htakes => exact htakes.accounted_giveUp ih hst

/-- A state is new when the call that took a card in it stores it. -/
theorem Takes.not_stored_giveUp (h : Takes true options remaining st card (false, st'))
    (hst : Ready options (remaining + 1) st) : st'.failed.contains (st'.giveUp true card).key = false := by
  rw [h.key_giveUp hst]
  exact h.contains_key_eq_false (accounted_place options remaining) hst

/-! ## The states that a run stores -/

/-- In the run that begins with `call` a call gives a card up in the state `st'`, and stores `key`. -/
def Stores (options : List BitSet) (call : ℕ × State) (st' : State) (key : BitSet × BitSet) : Prop :=
  ∃ remaining st card, Relation.ReflTransGen (Calls true options) call (remaining + 1, st) ∧
    Takes true options remaining st card (false, st') ∧ (st'.giveUp true card).key = key

variable {call call' : ℕ × State} {key : BitSet × BitSet}

/-- What a call below stores, the run stores. -/
theorem Stores.of_calls (hcall : Calls true options call call') (h : Stores options call' st' key) :
    Stores options call st' key := by
  obtain ⟨remaining, st, card, hreach, htakes, hkey⟩ := h
  exact ⟨remaining, st, card, hreach.head hcall, htakes, hkey⟩

/-- **A state is new when it is stored**, in the whole run. -/
theorem Stores.not_stored (h : Stores options call st' key) (hcall : Ready options call.1 call.2) :
    st'.failed.contains key = false := by
  obtain ⟨remaining, st, card, hreach, htakes, rfl⟩ := h
  exact htakes.not_stored_giveUp (ready_of_reaches hreach hcall)

/-- What is stored while sets are tried is stored by a call after one of them. -/
theorem exists_chooses_of_contains {next : State → Bool × State} {sets : List ℕ}
    (hnew : st.failed.contains key = false) (h : (tryEach next card sets st).2.failed.contains key = true) :
    ∃ st₁, Chooses next card sets st st₁ ∧ st₁.failed.contains key = false ∧
      (next st₁).2.failed.contains key = true := by
  induction sets generalizing st with
  | nil => exact absurd (hnew.symm.trans h) Bool.false_ne_true
  | cons set sets ih =>
    -- either the first set brings the state in, or it is as new after it as before
    cases hbelow : (next (st.choose card set)).2.failed.contains key with
    | true => exact ⟨st.choose card set, .first, hnew, hbelow⟩
    | false =>
      rw [tryEach] at h
      split at h
      · next st' hres =>
        rw [hres] at hbelow
        exact absurd (hbelow.symm.trans h) Bool.false_ne_true
      · next st' hres =>
        rw [hres] at hbelow
        have hnew' : (st'.takeBack set).failed.contains key = false := hbelow
        obtain ⟨st₁, hchoose, hst₁⟩ := ih hnew' h
        exact ⟨st₁, .later hres hchoose, hst₁⟩

/-- What is stored before the card is given up is stored by a call below. -/
theorem Takes.exists_stores_of_contains (h : Takes true options remaining st card result)
    (hbelow : ∀ st₁, st₁.failed.contains key = false →
      (place true options remaining st₁).2.failed.contains key = true → ∃ st', Stores options (remaining, st₁) st' key)
    (hnew : st.failed.contains key = false) (hkey : result.2.failed.contains key = true) :
    ∃ st', Stores options (remaining + 1, st) st' key := by
  have hnew' : (st.visit.take card).failed.contains key = false := hnew
  rw [← h.tried] at hkey
  obtain ⟨st₁, hchoose, hnew₁, hkey₁⟩ := exists_chooses_of_contains hnew' hkey
  obtain ⟨st', hstores⟩ := hbelow st₁ hnew₁ hkey₁
  exact ⟨st', hstores.of_calls (.below h hchoose)⟩

/-- What is stored in the end is stored in the course of the run, if it was not stored at the beginning. -/
theorem exists_stores_of_contains (hnew : st.failed.contains key = false)
    (hkey : (place true options remaining st).2.failed.contains key = true) :
    ∃ st', Stores options (remaining, st) st' key := by
  induction remaining generalizing st with
  | zero => exact absurd (hnew.symm.trans hkey) Bool.false_ne_true
  | succ remaining ih =>
    have hends := ends_place true options remaining st
    generalize place true options (remaining + 1) st = result at hends hkey
    cases hends with
    | stored => exact absurd (hnew.symm.trans hkey) Bool.false_ne_true
    | stuck => exact absurd (hnew.symm.trans hkey) Bool.false_ne_true
    | found htakes => exact htakes.exists_stores_of_contains (fun _ => ih) hnew hkey
    | @gaveUp card st' htakes =>
      have hinsert : (st'.failed.insert (st'.giveUp true card).key).contains key = true := hkey
      rw [Std.HashSet.contains_insert, Bool.or_eq_true, beq_iff_eq] at hinsert
      rcases hinsert with hself | hbefore
      · exact ⟨st', remaining, st, card, .refl, htakes, hself⟩
      · exact htakes.exists_stores_of_contains (fun _ => ih) hnew hbefore

/-! What is stored stays stored. -/

theorem State.contains_giveUp (h : st.failed.contains key = true) (card : ℕ) :
    (st.giveUp true card).failed.contains key = true := by
  show (st.failed.insert (st.giveUp true card).key).contains key = true
  rw [Std.HashSet.contains_insert, h, Bool.or_true]

theorem preserved_contains_failed (key : BitSet × BitSet) : Preserved true fun st => st.failed.contains key = true where
  visit _ h := h
  hit _ _ h := h
  take _ _ h := h
  choose _ _ _ h := h
  takeBack _ _ h := h
  giveUp _ card h := State.contains_giveUp h card

/-- What a call below leaves stored is stored after all sets have been tried. -/
theorem Chooses.contains_failed {next : State → Bool × State}
    (hnext : ∀ st, st.failed.contains key = true → (next st).2.failed.contains key = true) {sets : List ℕ}
    {st₁ : State} (h : Chooses next card sets st st₁) (hkey : (next st₁).2.failed.contains key = true) :
    (tryEach next card sets st).2.failed.contains key = true := by
  induction h with
  | first =>
    rw [tryEach]
    split
    · next hres => rwa [hres] at hkey
    · next hres =>
      rw [hres] at hkey
      exact (preserved_contains_failed key).tryEach hnext _ _ hkey
  | later hfail _ ih =>
    rw [tryEach, hfail]
    exact ih hkey

/-- What a call below leaves stored is stored in the end. -/
theorem Calls.contains_failed (h : Calls true options call call')
    (hkey : (place true options call'.1 call'.2).2.failed.contains key = true) :
    (place true options call.1 call.2).2.failed.contains key = true := by
  obtain @⟨remaining, card, st, st₁, result, htakes, hchoose⟩ := h
  -- the call ends as it does after its sets have been tried, since it takes a card
  have hresult := hchoose.contains_failed (fun _ => (preserved_contains_failed key).place options remaining) hkey
  rw [htakes.tried] at hresult
  have hends := ends_place true options remaining st
  show (place true options (remaining + 1) st).2.failed.contains key = true
  generalize place true options (remaining + 1) st = last at hends ⊢
  cases hends with
  | stored h => exact absurd (htakes.not_stored.symm.trans h) Bool.false_ne_true
  | stuck h => exact absurd (htakes.next.symm.trans h) (Option.some_ne_none _)
  | found h => rwa [(htakes.unique h).2] at hresult
  | gaveUp h =>
    rw [(htakes.unique h).2] at hresult
    exact State.contains_giveUp hresult _

/-- What is stored in the course of a run is stored in the end. -/
theorem Stores.contains_failed (h : Stores options call st' key) :
    (place true options call.1 call.2).2.failed.contains key = true := by
  obtain ⟨remaining, st, card, hreach, htakes, rfl⟩ := h
  induction hreach using Relation.ReflTransGen.head_induction_on with
  | refl =>
    show (place true options (remaining + 1) st).2.failed.contains _ = true
    rw [htakes.place_eq]
    exact Std.HashSet.contains_insert_self
  | head hcall _ ih => exact hcall.contains_failed ih

/-- **What is stored in the end**: the states stored at the beginning, and those that the run stored. -/
theorem contains_failed_place_iff :
    (place true options remaining st).2.failed.contains key = true ↔
      st.failed.contains key = true ∨ ∃ st', Stores options (remaining, st) st' key := by
  refine ⟨fun hkey => ?_, ?_⟩
  · cases hnew : st.failed.contains key with
    | true => exact Or.inl rfl
    | false => exact Or.inr (exists_stores_of_contains hnew hkey)
  · rintro (hbefore | ⟨st', hstores⟩)
    · exact (preserved_contains_failed key).place options remaining hbefore
    · exact hstores.contains_failed

end Search

end DeckLegality
