import DeckLegality.Proofs.Pairing.Counters

/-!
# What the calls of a solve leave behind

The search of a solve is one call that makes further calls, and all of them work on one state.  `Candidates.Reaches` says
which calls there are.  Each of them begins in a sound state with as many cards left as it is to place, so what is known of
such calls holds of every call of a solve.

* A call that fails gives back all that it took: the cards placed and the sets used are those from before, bit for bit
  (`Search.Restored`).
* A call that succeeds places every card and touches none that was placed before; what it adds to the sets used is what it
  chose, one set for each card (`Search.Filled`).
-/

namespace DeckLegality

namespace Search

/-- The cards placed and the sets used in the state `st'` are those in the state `st`. -/
structure Restored (st st' : State) : Prop where
  placed : st'.placed = st.placed
  used : st'.used = st.used

/-- From the state `st` to the state `st'` every card that was not placed is, with a set of its own that was left for it,
and nothing else has changed about the sets of the cards and the sets used. -/
structure Filled (options : List BitSet) (st st' : State) : Prop where
  placed : ∀ card < options.length, st'.placed.contains card = true
  kept : ∀ card, st.placed.contains card = true → st'.chosen[card]? = st.chosen[card]?
  chosen : ∀ card ∈ unplaced options st.placed, ∃ set, st'.chosen[card]? = some set ∧
    (left options st.used card).contains set = true
  distinct : Set.InjOn (fun card => st'.chosen[card]?) (unplaced options st.placed : Set ℕ)
  used : ∀ set, st'.used.contains set = true ↔
    st.used.contains set = true ∨ ∃ card ∈ unplaced options st.placed, st'.chosen[card]? = some set

variable {memoize : Bool} {options : List BitSet} {remaining : ℕ} {st : State}

/-- A ready call that fails leaves no trace among the cards placed and the sets used. -/
theorem Ready.restored (h : Ready options remaining st) (hfail : (place memoize options remaining st).1 = false) :
    Restored st (place memoize options remaining st).2 := by
  have hout := outcome_place memoize options remaining st h.sound h.remaining_eq
  have hnone : firstCompletion options remaining st.placed st.used = none := hout.eq_none hfail
  exact ⟨hout.placed_of_none hnone, hout.used_of_none hnone⟩

/-- A ready call that succeeds places what was left to place. -/
theorem Ready.filled (h : Ready options remaining st) (hfound : (place memoize options remaining st).1 = true) :
    Filled options st (place memoize options remaining st).2 := by
  have hout := outcome_place memoize options remaining st h.sound h.remaining_eq
  obtain ⟨f, hf⟩ := Option.isSome_iff_exists.mp (hout.fst_eq.symm.trans hfound)
  have hcomplete := completes_firstCompletion h.sound.room h.remaining_eq hf
  have hchosen := hout.chosen_of_some f hf
  refine
    { placed := fun card hcard => ?_
      kept := fun card hcard => hout.kept card fun hun => ?_
      chosen := fun card hcard => ⟨f card, hchosen card hcard, hcomplete.contains card hcard⟩
      distinct := fun a ha b hb heq => hcomplete.injOn ha hb ?_
      used := fun set => ?_ }
  · by_contra hnot
    have hmem := mem_unplaced.mpr ⟨hcard, Bool.not_eq_true _ ▸ hnot⟩
    rw [hout.unplaced_of_some f hf] at hmem
    exact Finset.notMem_empty card hmem
  · exact Bool.false_ne_true ((mem_unplaced.mp hun).2.symm.trans hcard)
  · exact Option.some.inj ((hchosen a ha).symm.trans (heq.trans (hchosen b hb)))
  · rw [hout.used_of_some f hf set]
    refine or_congr_right (exists_congr fun card => and_congr_right fun hcard => ?_)
    rw [hchosen card hcard, Option.some_inj]

end Search

namespace Candidates

open Search

variable {c : Candidates} {memoize : Bool} {remaining : ℕ} {st : State}

/-- In the course of a solve the search is called to place `remaining` cards from the state `st` on. -/
def Reaches (c : Candidates) (memoize : Bool) (remaining : ℕ) (st : State) : Prop :=
  c.size ≤ c.codes.size ∧ Relation.ReflTransGen (Calls memoize c.options) (c.size, c.start) (remaining, st)

theorem Reaches.ready (h : c.Reaches memoize remaining st) : Ready c.options remaining st :=
  ready_of_reaches h.2 c.ready_start

/-- **A search that fails leaves no trace, and one that succeeds does what it was called for.**  This is so for every call
in the course of a solve: after a failure the cards placed and the sets used are those from before; after a success every
card is placed, the cards that were placed before keep their sets, and the sets used are those from before together with
those of the other cards, which are distinct and were left for them. -/
theorem restored_or_filled_of_reaches (h : c.Reaches memoize remaining st) :
    ((place memoize c.options remaining st).1 = false → Restored st (place memoize c.options remaining st).2) ∧
    ((place memoize c.options remaining st).1 = true → Filled c.options st (place memoize c.options remaining st).2) :=
  ⟨h.ready.restored, h.ready.filled⟩

/-- The set `1` is chosen for `A`, so that only the set `3` is left for `B` and `C`. -/
def contestedBelow : State := (contested.start.visit.take 0).choose 0 0

theorem reaches_contestedBelow : contested.Reaches false 2 contestedBelow := by
  have hsize : contested.size ≤ contested.codes.size := by decide +kernel
  have htakes : Takes false contested.options 2 contested.start 0
      (tryEach (place false contested.options 2) 0 (left contested.options contested.start.used 0).toList
        (contested.start.visit.take 0)) := ⟨contested.isStored_start false, by decide +kernel, rfl⟩
  have hleft : (left contested.options contested.start.used 0).toList = [0, 1] := by decide +kernel
  refine ⟨hsize, .single (.below htakes ?_)⟩
  rw [hleft]
  exact .first

/-- The choice of the set `1` fails, and the search goes on from where it was before. -/
theorem restored_or_filled_of_reaches_contested :
    (contested.Reaches false 2 contestedBelow ∧
      (place false contested.options 2 contestedBelow).2.stats.backtracks = 1 ∧
      Restored contestedBelow (place false contested.options 2 contestedBelow).2) ∧
    contested.Reaches false 3 contested.start ∧
      Filled contested.options contested.start (place false contested.options 3 contested.start).2 := by
  have hbelow := reaches_contestedBelow
  have hstart : contested.Reaches false 3 contested.start := ⟨hbelow.1, .refl⟩
  have hfail : (place false contested.options 2 contestedBelow).1 = false := by decide +kernel
  have hfound : (place false contested.options 3 contested.start).1 = true := by decide +kernel
  exact ⟨⟨hbelow, by decide +kernel, (restored_or_filled_of_reaches hbelow).1 hfail⟩, hstart,
    (restored_or_filled_of_reaches hstart).2 hfound⟩

end Candidates

end DeckLegality
