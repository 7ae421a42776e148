import DeckLegality.Proofs.Pairing.Calls
import DeckLegality.Proofs.Search.Moments

/-!
# The dead states that a solve knows of

With memoisation a solve keeps the states in which it gave a card up, as the cards placed and the sets used, and a call in
such a state fails without a search.  What is kept is right at every moment of the solve, also while it is being added to:
the cards that are not placed cannot all be given sets of their own that are not used.  That is a fact about the masks, so
it does not matter by which way a state was reached when it was kept, nor by which way it is reached again.
-/

namespace DeckLegality

namespace Candidates

open Search

/-- In the course of a solve the search is once in the state `st`. -/
def PassesThrough (c : Candidates) (memoize : Bool) (st : State) : Prop :=
  ∃ remaining st₀, c.Reaches memoize remaining st₀ ∧ Moment memoize c.options (remaining, st₀) st

variable {c : Candidates} {memoize : Bool} {remaining : ℕ} {st : State}

theorem PassesThrough.sound (h : c.PassesThrough memoize st) : Sound c.options st := by
  obtain ⟨remaining, st₀, hreaches, hmoment⟩ := h
  exact hmoment.sound hreaches.ready

/-- **What is stored is dead**, at every moment of every solve.  A call that meets a stored state fails at once, and the
search without memoisation fails from there too; and whatever state a call begins in, it comes to the same with memoisation
and without, and fails exactly if the state is dead. -/
theorem dead_of_failed_and_place_eq (c : Candidates) :
    (∀ memoize st, c.PassesThrough memoize st → ∀ key, st.failed.contains key = true → Dead c.options key.1 key.2) ∧
    ∀ remaining st, c.Reaches true remaining st →
      (st.isStored true = true → place true c.options remaining st = (false, st.visit.hit) ∧
        (place false c.options remaining st).1 = false) ∧
      (place true c.options remaining st).1 = (place false c.options remaining st).1 ∧
      ((place false c.options remaining st).1 = false ↔ Dead c.options st.placed st.used) := by
  refine ⟨fun memoize st hpasses => hpasses.sound.dead, fun remaining st hreaches => ?_⟩
  have hready := hreaches.ready
  refine ⟨fun hstored => ⟨hready.place_of_isStored hstored, ?_⟩, hready.fst_place_eq true false,
    hready.fst_place_eq_false_iff false⟩
  exact (hready.fst_place_eq_false_iff false).mpr (hready.sound.dead_of_isStored hstored)

/-! ## A state that is met again -/

/-- Three cards for which there are two sets, and one with sets of its own. -/
def pigeonholed : Candidates :=
  .ofList [(⟨"A"⟩, .ofList [⟨"1"⟩, ⟨"2"⟩]), (⟨"B"⟩, .ofList [⟨"1"⟩, ⟨"2"⟩]), (⟨"C"⟩, .ofList [⟨"1"⟩, ⟨"2"⟩]),
    (⟨"D"⟩, .ofList [⟨"3"⟩, ⟨"4"⟩])]

/-- The set `1` is chosen for `A`. -/
def viaOne : State := (pigeonholed.start.visit.take 0).choose 0 0

/-- Then the set `2` is chosen for `B`. -/
def viaOneTwo : State := (viaOne.visit.take 1).choose 1 1

/-- `C` is given up, and then `B`. -/
def afterOne : State := (((viaOneTwo.visit.take 2).giveUp true 2).takeBack 1).giveUp true 1

/-- The set `2` is chosen for `A`. -/
def viaTwo : State := (afterOne.takeBack 0).choose 0 1

/-- Then the set `1` is chosen for `B`, so that the same sets are used for the same cards as before. -/
def viaTwoOne : State := (viaTwo.visit.take 1).choose 1 0

theorem takes_viaOneTwo : Takes true pigeonholed.options 1 viaOneTwo 2 (false, viaOneTwo.visit.take 2) where
  not_stored := pigeonholed.contains_failed_start viaOneTwo.key
  next := by decide +kernel
  tried := by
    have hleft : (left pigeonholed.options viaOneTwo.used 2).toList = [] := by decide +kernel
    rw [hleft]
    rfl

theorem takes_viaOne :
    Takes true pigeonholed.options 2 viaOne 1 (false, ((viaOneTwo.visit.take 2).giveUp true 2).takeBack 1) where
  not_stored := pigeonholed.contains_failed_start viaOne.key
  next := by decide +kernel
  tried := by
    have hleft : (left pigeonholed.options viaOne.used 1).toList = [1] := by decide +kernel
    have hbelow : place true pigeonholed.options 2 ((viaOne.visit.take 1).choose 1 1) =
        (false, (viaOneTwo.visit.take 2).giveUp true 2) := takes_viaOneTwo.place_eq
    rw [hleft, tryEach, hbelow]
    rfl

/-- By now the states are stored in which `C` and `B` were taken. -/
theorem contains_failed_afterOne (key : BitSet × BitSet) :
    afterOne.failed.contains key = (viaOne.key == key || viaOneTwo.key == key) := by
  have hone : afterOne.key = viaOne.key := by decide +kernel
  have htwo : ((viaOneTwo.visit.take 2).giveUp true 2).key = viaOneTwo.key := by decide +kernel
  have hfailed : afterOne.failed =
      (pigeonholed.start.failed.insert ((viaOneTwo.visit.take 2).giveUp true 2).key).insert afterOne.key := rfl
  rw [hfailed, Std.HashSet.contains_insert, Std.HashSet.contains_insert, contains_failed_start, Bool.or_false, hone, htwo]

/-- The search goes on with the set `2` for `A`, and then meets the state in which `C` was given up. -/
theorem reaches_viaTwoOne : pigeonholed.Reaches true 2 viaTwoOne ∧ viaTwoOne.isStored true = true := by
  have hsize : pigeonholed.size ≤ pigeonholed.codes.size := by decide +kernel
  have htakes : Takes true pigeonholed.options 3 pigeonholed.start 0
      (tryEach (place true pigeonholed.options 3) 0 (left pigeonholed.options pigeonholed.start.used 0).toList
        (pigeonholed.start.visit.take 0)) := ⟨pigeonholed.isStored_start true, by decide +kernel, rfl⟩
  have hnot : viaTwo.isStored true = false := by
    show afterOne.failed.contains viaTwo.key = false
    rw [contains_failed_afterOne]
    decide +kernel
  have htakes' : Takes true pigeonholed.options 2 viaTwo 1
      (tryEach (place true pigeonholed.options 2) 1 (left pigeonholed.options viaTwo.used 1).toList
        (viaTwo.visit.take 1)) := ⟨hnot, by decide +kernel, rfl⟩
  have hleft : (left pigeonholed.options pigeonholed.start.used 0).toList = [0, 1] := by decide +kernel
  have hleft' : (left pigeonholed.options viaTwo.used 1).toList = [0] := by decide +kernel
  have hchoose : Chooses (place true pigeonholed.options 3) 0 [0, 1] (pigeonholed.start.visit.take 0) viaTwo :=
    .later takes_viaOne.place_eq .first
  have hstored : viaTwoOne.isStored true = true := by
    show afterOne.failed.contains viaTwoOne.key = true
    rw [contains_failed_afterOne]
    decide +kernel
  refine ⟨⟨hsize, .tail (.single (.below htakes (hleft ▸ hchoose))) (.below htakes' ?_)⟩, hstored⟩
  rw [hleft']
  exact .first

theorem dead_of_failed_and_place_eq_pigeonholed :
    (pigeonholed.PassesThrough true viaTwoOne ∧ viaTwoOne.failed.contains viaTwoOne.key = true ∧
      Dead pigeonholed.options viaTwoOne.placed viaTwoOne.used) ∧
    (pigeonholed.Reaches true 2 viaTwoOne ∧ viaTwoOne.isStored true = true ∧
      place true pigeonholed.options 2 viaTwoOne = (false, viaTwoOne.visit.hit) ∧
      (place false pigeonholed.options 2 viaTwoOne).1 = false) := by
  obtain ⟨hreaches, hstored⟩ := reaches_viaTwoOne
  have hpasses : pigeonholed.PassesThrough true viaTwoOne := ⟨2, viaTwoOne, hreaches, .start⟩
  have hcontains : viaTwoOne.failed.contains viaTwoOne.key = true := hstored
  obtain ⟨hdead, hcalls⟩ := dead_of_failed_and_place_eq pigeonholed
  exact ⟨⟨hpasses, hcontains, hdead true viaTwoOne hpasses viaTwoOne.key hcontains⟩, hreaches, hstored,
    (hcalls 2 viaTwoOne hreaches).1 hstored⟩

end Candidates

end DeckLegality
