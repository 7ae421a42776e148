import DeckLegality.Proofs.Pairing.Solve
import DeckLegality.Proofs.Search.Counted
import DeckLegality.Proofs.Search.Stored

/-!
# The counters of the solver

What the statements about single calls of a search say of a whole answer.  A search begins in a ready state with no
state stored and all counters zero, so they become equations and bounds between the counters themselves.

* `solve_counters_balance`: the states entered against the choices taken back, and these against the stored states met.
* `solve_stores_once`: no state is stored that is stored already, and the states entered are accounted for.
* `solve_memoize_le`: with memoisation the search enters no more states and takes back no more choices.
-/

namespace DeckLegality

namespace Candidates

open Search

variable {c : Candidates}

/-- A search begins with a ready call. -/
theorem ready_start (c : Candidates) : Ready c.options c.size c.start := ⟨c.sound_start, c.card_unplaced_start.symm⟩

/-- A search begins with no state stored. -/
theorem contains_failed_start (c : Candidates) (key : BitSet × BitSet) : c.start.failed.contains key = false :=
  Std.HashSet.contains_empty

theorem isStored_start (c : Candidates) (memoize : Bool) : c.start.isStored memoize = false := by
  rw [State.isStored, contains_failed_start, Bool.and_false]

theorem stats_solve_of_lt (hlt : c.codes.size < c.size) (memoize : Bool) : (c.solve memoize).stats = {} := by
  rw [solve, if_pos hlt]

theorem pairing_solve_of_lt (hlt : c.codes.size < c.size) (memoize : Bool) : (c.solve memoize).pairing = none := by
  rw [solve, if_pos hlt]

/-! ## States entered, choices taken back, stored states met -/

/-- An answer has one state more than choices taken back for each card, and no answer has one state more over all. -/
theorem nodesVisited_solve (hsize : c.size ≤ c.codes.size) (memoize : Bool) :
    (c.solve memoize).stats.nodesVisited =
      (c.solve memoize).stats.backtracks + if (c.solve memoize).pairing.isSome then c.size else 1 := by
  have hnodes := (balanced_place memoize c.options c.size c.start).nodes
  rw [← stats_solve hsize, ← isSome_pairing_solve hsize] at hnodes
  exact hnodes.trans (congrArg (· + _) (Nat.zero_add _))

/-- Every stored state that is met has its choice taken back, as the search does not begin in one. -/
theorem memoHits_solve_le (c : Candidates) (memoize : Bool) :
    (c.solve memoize).stats.memoHits ≤ (c.solve memoize).stats.backtracks := by
  rcases Nat.lt_or_ge c.codes.size c.size with hlt | hge
  · rw [stats_solve_of_lt hlt]
  · rw [stats_solve hge]
    exact (memoHits_place_le (c.isStored_start memoize)).trans_eq (Nat.zero_add _)

theorem memoHits_solve_false (c : Candidates) : (c.solve false).stats.memoHits = 0 := by
  rcases Nat.lt_or_ge c.codes.size c.size with hlt | hge
  · rw [stats_solve_of_lt hlt]
  · rw [stats_solve hge]
    exact memoHits_place_false c.options c.size c.start

/-- **The counters of an answer agree with each other.**  With more cards than distinct sets nothing is counted.
Otherwise the states entered are the choices taken back, and one more for each card if there is an answer, and a single
one more if there is none.  Never are more stored states met than choices taken back, and without memoisation none is. -/
theorem solve_counters_balance (c : Candidates) (memoize : Bool) :
    (c.codes.size < c.size → (c.solve memoize).stats.nodesVisited = 0 ∧ (c.solve memoize).stats.backtracks = 0 ∧
      (c.solve memoize).stats.memoHits = 0) ∧
    (c.size ≤ c.codes.size →
      (∀ p, (c.solve memoize).pairing = some p →
        (c.solve memoize).stats.nodesVisited = (c.solve memoize).stats.backtracks + c.size) ∧
      ((c.solve memoize).pairing = none →
        (c.solve memoize).stats.nodesVisited = (c.solve memoize).stats.backtracks + 1)) ∧
    (c.solve memoize).stats.memoHits ≤ (c.solve memoize).stats.backtracks ∧
    (c.solve false).stats.memoHits = 0 := by
  refine ⟨fun hlt => ?_, fun hsize => ⟨fun p hp => ?_, fun hnone => ?_⟩, c.memoHits_solve_le memoize,
    c.memoHits_solve_false⟩
  · rw [stats_solve_of_lt hlt]
    exact ⟨rfl, rfl, rfl⟩
  · rw [nodesVisited_solve hsize, hp, Option.isSome_some, if_pos rfl]
  · rw [nodesVisited_solve hsize, hnone, Option.isSome_none, if_neg Bool.false_ne_true]

/-- Three cards, two of which have the same set only. -/
def deadlocked : Candidates :=
  .ofList [(⟨"A"⟩, .ofList [⟨"1"⟩]), (⟨"B"⟩, .ofList [⟨"1"⟩]), (⟨"C"⟩, .ofList [⟨"1"⟩, ⟨"2"⟩, ⟨"3"⟩])]

/-- The same without the third card, so that there are fewer sets than cards. -/
def scarce : Candidates := .ofList [(⟨"A"⟩, .ofList [⟨"1"⟩]), (⟨"B"⟩, .ofList [⟨"1"⟩])]

theorem solve_counters_balance_deadlocked :
    (scarce.codes.size < scarce.size ∧ (scarce.solve true).stats.nodesVisited = 0) ∧
    (deadlocked.size ≤ deadlocked.codes.size ∧ (deadlocked.solve true).pairing = none ∧
      (deadlocked.solve true).stats.nodesVisited = (deadlocked.solve true).stats.backtracks + 1) ∧
    (contested.solve false).pairing.isSome = true ∧ (contested.solve false).stats.backtracks = 2 ∧
      (contested.solve false).stats.nodesVisited = 5 := by
  have hscarce : scarce.codes.size < scarce.size := by decide +kernel
  have hsize : deadlocked.size ≤ deadlocked.codes.size := by decide +kernel
  have hnone : (deadlocked.solve true).pairing = none := by
    rw [solve_pairing_eq hsize]
    decide +kernel
  have hsome : (contested.solve false).pairing.isSome = true := by decide +kernel
  have hback : (contested.solve false).stats.backtracks = 2 := by decide +kernel
  obtain ⟨p, hp⟩ := Option.isSome_iff_exists.mp hsome
  refine ⟨⟨hscarce, ((solve_counters_balance scarce true).1 hscarce).1⟩,
    ⟨hsize, hnone, ((solve_counters_balance deadlocked true).2.1 hsize).2 hnone⟩, hsome, hback, ?_⟩
  rw [((solve_counters_balance contested false).2.1 (by decide +kernel)).1 p hp, hback]
  rfl

/-! ## Stored states -/

/-- The state in which the search ends; without a search it is the first one. -/
def lastState (c : Candidates) (memoize : Bool) : State :=
  if c.codes.size < c.size then c.start else (place memoize c.options c.size c.start).2

/-- In the search with memoisation a card is given up in the state `st`, and `key` is stored. -/
def Stores (c : Candidates) (st : State) (key : BitSet × BitSet) : Prop :=
  c.size ≤ c.codes.size ∧ Search.Stores c.options (c.size, c.start) st key

/-- In the end those states are stored that the search stored. -/
theorem contains_failed_lastState_iff (c : Candidates) (key : BitSet × BitSet) :
    (c.lastState true).failed.contains key = true ↔ ∃ st, c.Stores st key := by
  rcases Nat.lt_or_ge c.codes.size c.size with hlt | hge
  · rw [lastState, if_pos hlt, contains_failed_start]
    refine iff_of_false Bool.false_ne_true ?_
    rintro ⟨st, hge, -⟩
    exact absurd hlt (Nat.not_lt.mpr hge)
  · rw [lastState, if_neg (Nat.not_lt.mpr hge), contains_failed_place_iff, contains_failed_start,
      or_iff_right Bool.false_ne_true]
    exact exists_congr fun st => (and_iff_right hge).symm

/-- The states entered are those met stored, those stored, and one for each card of an answer. -/
theorem nodesVisited_solve_true (c : Candidates) :
    (c.solve true).stats.nodesVisited = (c.solve true).stats.memoHits + (c.lastState true).failed.size +
      if (c.solve true).pairing.isSome then c.size else 0 := by
  rcases Nat.lt_or_ge c.codes.size c.size with hlt | hge
  · rw [stats_solve_of_lt hlt, pairing_solve_of_lt hlt, lastState, if_pos hlt, start, Std.HashSet.size_empty]
    rfl
  · have hnodes := (accounted_place c.options c.size c.start c.ready_start).nodes
    -- the first state has no state stored and all counters zero
    rw [← stats_solve hge, ← isSome_pairing_solve hge, start, Std.HashSet.size_empty] at hnodes
    rw [lastState, if_neg (Nat.not_lt.mpr hge)]
    exact hnodes.trans (congrArg (· + _ + _) (Nat.zero_add _))

/-- **No state is searched twice.**  A state that the search stores is not stored before, and in the end exactly the
states are stored that the search stored.  The states entered are those that were met stored, those that are stored in
the end, and one more for each card if there is an answer. -/
theorem solve_stores_once (c : Candidates) :
    (∀ st key, c.Stores st key → st.failed.contains key = false) ∧
    (∀ key, (c.lastState true).failed.contains key = true ↔ ∃ st, c.Stores st key) ∧
    (c.solve true).stats.nodesVisited = (c.solve true).stats.memoHits + (c.lastState true).failed.size +
      if (c.solve true).pairing.isSome then c.size else 0 :=
  ⟨fun _ _ hstores => hstores.2.not_stored c.ready_start, c.contains_failed_lastState_iff, c.nodesVisited_solve_true⟩

/-- The set `1` is chosen for `A`. -/
def deadlockedBelow : State := (deadlocked.start.visit.take 0).choose 0 0

/-- Then no set is left for `B`. -/
theorem takes_deadlockedBelow :
    Takes true deadlocked.options 1 deadlockedBelow 1 (false, deadlockedBelow.visit.take 1) where
  not_stored := deadlocked.contains_failed_start deadlockedBelow.key
  next := by decide +kernel
  tried := by
    have hleft : (left deadlocked.options deadlockedBelow.used 1).toList = [] := by decide +kernel
    rw [hleft]
    rfl

/-- So the search takes the choice for `A` back, which was the only one. -/
theorem takes_deadlocked :
    Takes true deadlocked.options 2 deadlocked.start 0
      (false, ((deadlockedBelow.visit.take 1).giveUp true 1).takeBack 0) where
  not_stored := deadlocked.isStored_start true
  next := by decide +kernel
  tried := by
    have hleft : (left deadlocked.options deadlocked.start.used 0).toList = [0] := by decide +kernel
    have hbelow : place true deadlocked.options 2 ((deadlocked.start.visit.take 0).choose 0 0) =
        (false, (deadlockedBelow.visit.take 1).giveUp true 1) := takes_deadlockedBelow.place_eq
    rw [hleft, tryEach, hbelow]
    rfl

theorem solve_stores_once_deadlocked :
    deadlocked.Stores (deadlockedBelow.visit.take 1) deadlockedBelow.key ∧
      (deadlockedBelow.visit.take 1).failed.contains deadlockedBelow.key = false := by
  have hsize : deadlocked.size ≤ deadlocked.codes.size := by decide +kernel
  have hleft : (left deadlocked.options deadlocked.start.used 0).toList = [0] := by decide +kernel
  have hchoose : Chooses (place true deadlocked.options 2) 0 (left deadlocked.options deadlocked.start.used 0).toList
      (deadlocked.start.visit.take 0) deadlockedBelow := by
    rw [hleft]
    exact .first
  have hcalls : Calls true deadlocked.options (3, deadlocked.start) (2, deadlockedBelow) :=
    .below takes_deadlocked hchoose
  have hready := hcalls.ready deadlocked.ready_start
  have hstores : deadlocked.Stores (deadlockedBelow.visit.take 1) deadlockedBelow.key :=
    ⟨hsize, 1, deadlockedBelow, 1, .single hcalls, takes_deadlockedBelow, takes_deadlockedBelow.key_giveUp hready⟩
  exact ⟨hstores, (solve_stores_once deadlocked).1 _ _ hstores⟩

/-! ## With memoisation and without -/

/-- **Memoisation costs nothing**: the search enters no more states and takes back no more choices than without, and if it
meets no stored state it enters and takes back as many. -/
theorem solve_memoize_le (c : Candidates) :
    (c.solve true).stats.nodesVisited ≤ (c.solve false).stats.nodesVisited ∧
    (c.solve true).stats.backtracks ≤ (c.solve false).stats.backtracks ∧
    ((c.solve true).stats.memoHits = 0 →
      (c.solve true).stats.nodesVisited = (c.solve false).stats.nodesVisited ∧
      (c.solve true).stats.backtracks = (c.solve false).stats.backtracks) := by
  rcases Nat.lt_or_ge c.codes.size c.size with hlt | hge
  · rw [stats_solve_of_lt hlt, stats_solve_of_lt hlt]
    exact ⟨le_rfl, le_rfl, fun _ => ⟨rfl, rfl⟩⟩
  · have hcosts := costsAtMost_place true c.options c.size c.start c.ready_start
    have hplain := stats_place c.sound_start c.card_unplaced_start.symm
    rw [stats_solve hge, stats_solve hge, hplain]
    refine ⟨hcosts.nodes_le, hcosts.backtracks_le, fun hhits => ?_⟩
    rw [hcosts.eq_plus hhits]
    exact ⟨rfl, rfl⟩

theorem solve_memoize_le_deadlocked :
    (deadlocked.solve true).stats.memoHits = 0 ∧ (deadlocked.solve false).stats.backtracks = 1 ∧
      (deadlocked.solve true).stats.backtracks = 1 := by
  have hhits : (deadlocked.solve true).stats.memoHits = 0 := by
    have hplace : place true deadlocked.options deadlocked.size deadlocked.start =
        (false, (((deadlockedBelow.visit.take 1).giveUp true 1).takeBack 0).giveUp true 0) := takes_deadlocked.place_eq
    rw [stats_solve (by decide +kernel), hplace]
    rfl
  have hplain : (deadlocked.solve false).stats.backtracks = 1 := by decide +kernel
  exact ⟨hhits, hplain, (((solve_memoize_le deadlocked).2.2 hhits).2).trans hplain⟩

end Candidates

end DeckLegality
