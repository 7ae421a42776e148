import DeckLegality.Proofs.Search.FirstCompletion
import Mathlib.Data.List.Basic

/-!
# What placing the remaining cards does

`place` carries one state through the whole search.  It takes a card, chooses a set, goes on, and takes the choice
back when it led nowhere, and with memoisation it stores dead states and stops where it meets one again.  None of
this shows: `outcome_place` says that the answer is `firstCompletion` of the state at the start, and how the state
has changed.

* On failure the cards placed and the sets used are those from before.
* On success every card is placed, the sets used are those from before with those of the completion, and each card
  that was not placed has the set that the completion gives it.
* Either way the cards that were placed keep their sets.

Two facts carry the induction.  A state that is stored is dead, and stays so, because being dead depends on the
cards placed and the sets used alone and not on the way to them; so stopping at a stored state is right.  And a
set that is tried was not used before, so that erasing it restores the sets used bit for bit.
-/

namespace DeckLegality

namespace Search

/-- A state in which everything is as the search relies on: there is room, every card has an entry for its set,
and what is stored is dead. -/
structure Sound (options : List BitSet) (st : State) : Prop where
  room : HasRoom options st.placed st.used
  length_chosen : st.chosen.length = options.length
  dead : ∀ key, st.failed.contains key = true → Dead options key.1 key.2

/-- What becomes of the state `st` when the cards `todo` are to be placed and `found` is the completion that is
there to be found, if there is one. -/
structure Outcome (options : List BitSet) (todo : Finset ℕ) (st : State) (found : Option (ℕ → ℕ))
    (result : Bool × State) : Prop where
  sound : Sound options result.2
  fst_eq : result.1 = found.isSome
  kept : ∀ card ∉ todo, result.2.chosen[card]? = st.chosen[card]?
  placed_of_none : found = none → result.2.placed = st.placed
  used_of_none : found = none → result.2.used = st.used
  unplaced_of_some : ∀ f, found = some f → unplaced options result.2.placed = ∅
  used_of_some : ∀ f, found = some f → ∀ set,
    result.2.used.contains set = true ↔ st.used.contains set = true ∨ ∃ card ∈ todo, f card = set
  chosen_of_some : ∀ f, found = some f → ∀ card ∈ todo, result.2.chosen[card]? = some (f card)

variable {options : List BitSet} {st : State} {card set : ℕ} {todo : Finset ℕ}

@[simp] theorem State.visit_placed : st.visit.placed = st.placed := rfl

@[simp] theorem State.visit_used : st.visit.used = st.used := rfl

/-! ## The steps of the search keep a state sound -/

theorem Sound.visit (h : Sound options st) : Sound options st.visit :=
  ⟨h.room, h.length_chosen, h.dead⟩

theorem Sound.hit (h : Sound options st) : Sound options st.hit :=
  ⟨h.room, h.length_chosen, h.dead⟩

theorem Sound.take (h : Sound options st) (card : ℕ) : Sound options (st.take card) :=
  ⟨h.room.insert_card card, h.length_chosen, h.dead⟩

theorem Sound.choose (h : Sound options st) (card set : ℕ) : Sound options (st.choose card set) :=
  ⟨h.room.insert_set set, by rw [State.choose, List.length_set, h.length_chosen], h.dead⟩

theorem Sound.takeBack (h : Sound options st) (set : ℕ) : Sound options (st.takeBack set) := by
  refine ⟨⟨h.room.card_lt, ?_⟩, h.length_chosen, h.dead⟩
  rw [State.takeBack, BitSet.capacity_erase]
  exact h.room.set_lt

/-- Giving a card up stores the state in which it was taken, which has to be dead. -/
theorem Sound.giveUp (h : Sound options st) {memoize : Bool}
    (hdead : Dead options (st.placed.erase card) st.used) : Sound options (st.giveUp memoize card) := by
  refine ⟨⟨?_, h.room.set_lt⟩, h.length_chosen, fun key hkey => ?_⟩
  · rw [State.giveUp, BitSet.capacity_erase]
    exact h.room.card_lt
  · cases memoize with
    | false => exact h.dead key hkey
    | true =>
      rw [State.giveUp, if_pos rfl, Std.HashSet.contains_insert, Bool.or_eq_true, beq_iff_eq] at hkey
      rcases hkey with rfl | hkey
      · exact hdead
      · exact h.dead key hkey

/-! ## Outcomes -/

/-- A failure that changes nothing but what is stored and counted. -/
theorem Outcome.of_none {st' : State} (hsound : Sound options st') (hplaced : st'.placed = st.placed)
    (hused : st'.used = st.used) (hkept : ∀ card ∉ todo, st'.chosen[card]? = st.chosen[card]?) :
    Outcome options todo st none (false, st') where
  sound := hsound
  fst_eq := rfl
  kept := hkept
  placed_of_none _ := hplaced
  used_of_none _ := hused
  unplaced_of_some _ h := absurd h.symm (Option.some_ne_none _)
  used_of_some _ h := absurd h.symm (Option.some_ne_none _)
  chosen_of_some _ h := absurd h.symm (Option.some_ne_none _)

/-- What fails has found nothing. -/
theorem Outcome.eq_none {found : Option (ℕ → ℕ)} {result : Bool × State} (h : Outcome options todo st found result)
    (hfail : result.1 = false) : found = none :=
  Option.not_isSome_iff_eq_none.mp fun hsome => Bool.false_ne_true (hfail.symm.trans (h.fst_eq.trans hsome))

/-- An outcome depends on the sets used, on the entries of the cards that are not to be placed and, where nothing
is found, on the cards placed. -/
theorem Outcome.congr {st₁ : State} {found : Option (ℕ → ℕ)} {result : Bool × State}
    (h : Outcome options todo st₁ found result) (hplaced : found = none → st₁.placed = st.placed)
    (hused : st₁.used = st.used) (hkept : ∀ card ∉ todo, st₁.chosen[card]? = st.chosen[card]?) :
    Outcome options todo st found result where
  sound := h.sound
  fst_eq := h.fst_eq
  kept card hcard := (h.kept card hcard).trans (hkept card hcard)
  placed_of_none hnone := (h.placed_of_none hnone).trans (hplaced hnone)
  used_of_none hnone := (h.used_of_none hnone).trans hused
  unplaced_of_some := h.unplaced_of_some
  used_of_some f hf set := by rw [h.used_of_some f hf set, hused]
  chosen_of_some := h.chosen_of_some

/-- The entries after a choice are those from before, but for the card. -/
theorem chosen_choose_of_ne {other : ℕ} (h : other ≠ card) :
    (st.choose card set).chosen[other]? = st.chosen[other]? := by
  rw [State.choose, List.getElem?_set_ne (Ne.symm h)]

/-- A success below a choice is a success with the choice. -/
theorem Outcome.choose {f : ℕ → ℕ} {st' : State} (hst : Sound options st) (hlt : card < options.length)
    (hcard : card ∉ todo) (hset : set < st.used.capacity)
    (h : Outcome options todo (st.choose card set) (some f) (true, st')) :
    Outcome options (insert card todo) st (some (Function.update f card set)) (true, st') where
  sound := h.sound
  fst_eq := rfl
  kept other hother := by
    obtain ⟨hne, hnot⟩ := not_or.mp (mt Finset.mem_insert.mpr hother)
    rw [h.kept other hnot, chosen_choose_of_ne hne]
  placed_of_none hnone := absurd hnone (Option.some_ne_none _)
  used_of_none hnone := absurd hnone (Option.some_ne_none _)
  unplaced_of_some _ _ := h.unplaced_of_some f rfl
  used_of_some g hg other := by
    obtain rfl := Option.some.inj hg
    have hrest : (∃ c ∈ todo, Function.update f card set c = other) ↔ ∃ c ∈ todo, f c = other := by
      refine exists_congr fun c => and_congr_right fun hc => ?_
      rw [Function.update_of_ne fun he : c = card => hcard (he ▸ hc)]
    rw [h.used_of_some f rfl other, State.choose, BitSet.contains_insert hset, Finset.exists_mem_insert,
      Function.update_self, hrest, Bool.or_eq_true, decide_eq_true_eq]
    constructor
    · rintro ((rfl | hused) | hc)
      · exact Or.inr (Or.inl rfl)
      · exact Or.inl hused
      · exact Or.inr (Or.inr hc)
    · rintro (hused | rfl | hc)
      · exact Or.inl (Or.inr hused)
      · exact Or.inl (Or.inl rfl)
      · exact Or.inr hc
  chosen_of_some g hg other hother := by
    obtain rfl := Option.some.inj hg
    by_cases hne : other = card
    · subst hne
      rw [h.kept other hcard, Function.update_self]
      exact List.getElem?_set_self (by rw [hst.length_chosen]; exact hlt)
    · rw [Function.update_of_ne hne]
      exact h.chosen_of_some f rfl other ((Finset.mem_insert.mp hother).resolve_left hne)

/-- After a failure below a choice the choice is taken back, and with it the set, which was not used before. -/
theorem Outcome.takeBack {st' : State} (hfresh : st.used.contains set = false)
    (h : Outcome options todo (st.choose card set) none (false, st')) :
    (st'.takeBack set).placed = st.placed ∧ (st'.takeBack set).used = st.used := by
  have hused : st'.used = st.used.insert set := h.used_of_none rfl
  refine ⟨h.placed_of_none rfl, ?_⟩
  rw [State.takeBack, hused, BitSet.erase_insert hfresh]

/-! ## The sets of one card -/

/-- Trying sets in turn finds the first one below which something is found.  `below` is what is found when the
other cards are placed with the given sets used. -/
theorem outcome_tryEach {next : State → Bool × State} {below : BitSet → Option (ℕ → ℕ)} {placed : BitSet}
    (hlt : card < options.length) (hcard : card ∉ todo)
    (hnext : ∀ st, Sound options st → st.placed = placed → Outcome options todo st (below st.used) (next st))
    {sets : List ℕ} {st : State} (hst : Sound options st) (hplaced : st.placed = placed)
    (hsets : ∀ set ∈ sets, st.used.contains set = false ∧ set < st.used.capacity) :
    Outcome options (insert card todo) st
      (sets.findSome? fun set => (below (st.used.insert set)).map fun f => Function.update f card set)
      (tryEach next card sets st) := by
  induction sets generalizing st with
  | nil => exact Outcome.of_none hst rfl rfl fun _ _ => rfl
  | cons set sets ih =>
    obtain ⟨⟨hfresh, hroom⟩, hrest⟩ := List.forall_mem_cons.mp hsets
    have hout := hnext (st.choose card set) (hst.choose card set) hplaced
    rw [show (st.choose card set).used = st.used.insert set from rfl] at hout
    rw [tryEach]
    obtain ⟨found, st', hres⟩ : ∃ b st', next (st.choose card set) = (b, st') := ⟨_, _, rfl⟩
    rw [hres] at hout ⊢
    have hfound : found = (below (st.used.insert set)).isSome := hout.fst_eq
    cases hbelow : below (st.used.insert set) with
    | some f =>
      rw [hbelow] at hout hfound
      subst hfound
      rw [List.findSome?_cons_of_isSome (by rw [hbelow]; rfl), hbelow]
      exact hout.choose hst hlt hcard hroom
    | none =>
      rw [hbelow] at hout hfound
      subst hfound
      rw [List.findSome?_cons_of_isNone (by rw [hbelow]; rfl)]
      obtain ⟨hplaced', hused'⟩ := hout.takeBack hfresh
      have hagain := ih (hout.sound.takeBack set) (hplaced'.trans hplaced) (by rw [hused']; exact hrest)
      rw [hused'] at hagain
      refine hagain.congr (fun _ => hplaced') hused' fun other hother => ?_
      obtain ⟨hne, hnot⟩ := not_or.mp (mt Finset.mem_insert.mpr hother)
      exact (hout.kept other hnot).trans (chosen_choose_of_ne hne)

/-! ## All cards -/

/-- What placing the cards that are left does, from whatever sound state. -/
def PlacesFirst (memoize : Bool) (options : List BitSet) (remaining : ℕ) : Prop :=
  ∀ st, Sound options st → remaining = (unplaced options st.placed).card →
    Outcome options (unplaced options st.placed) st (firstCompletion options remaining st.placed st.used)
      (place memoize options remaining st)

/-- Placing the cards that are left after one of them. -/
theorem PlacesFirst.below {memoize : Bool} {remaining : ℕ} {placed used : BitSet}
    (ih : PlacesFirst memoize options remaining) (hroom : HasRoom options placed used)
    (hremaining : remaining + 1 = (unplaced options placed).card) (hcard : card ∈ unplaced options placed)
    (hst : Sound options st) (hplaced : st.placed = placed.insert card) :
    Outcome options (unplaced options (placed.insert card)) st
      (firstCompletion options remaining (placed.insert card) st.used) (place memoize options remaining st) := by
  have hcount := card_unplaced_insert hroom hcard
  have hout := ih st hst (by rw [hplaced]; omega)
  rwa [hplaced] at hout

/-- Trying the sets of the card that comes next. -/
theorem outcome_tryEach_place {memoize : Bool} {remaining : ℕ} (ih : PlacesFirst memoize options remaining)
    (hst : Sound options st) (hremaining : remaining + 1 = (unplaced options st.placed).card)
    (hnext : mostConstrained options st.placed st.used = some (card, left options st.used card))
    (hcard : card ∈ unplaced options st.placed) :
    Outcome options (unplaced options st.placed) (st.take card)
      (firstCompletion options (remaining + 1) st.placed st.used)
      (tryEach (place memoize options remaining) card (left options st.used card).toList (st.take card)) := by
  have hnot : card ∉ unplaced options (st.placed.insert card) := by
    rw [unplaced_insert hst.room hcard]
    exact Finset.notMem_erase card _
  have hfresh : ∀ set ∈ (left options st.used card).toList,
      st.used.contains set = false ∧ set < st.used.capacity := by
    intro set hset
    have hleft := BitSet.mem_toList.mp hset
    exact ⟨not_used_of_contains_left hleft, hst.room.lt_of_contains_left hleft⟩
  have htry := outcome_tryEach (mem_unplaced.mp hcard).1 hnot
    (fun st₁ hst₁ hplaced => ih.below hst.room hremaining hcard hst₁ hplaced) (hst.take card) rfl hfresh
  rw [insert_unplaced_insert hst.room hcard] at htry
  rw [firstCompletion_succ hnext]
  exact htry

/-- A card below which nothing was found is given up, and the state in which it was taken is dead. -/
theorem Outcome.giveUp {memoize : Bool} {st' : State}
    (hcard : st.placed.contains card = false) (hdead : Dead options st.placed st.used)
    (h : Outcome options todo (st.take card) none (false, st')) :
    Outcome options todo st none (false, st'.giveUp memoize card) := by
  have hplaced : st'.placed.erase card = st.placed := by
    rw [show st'.placed = st.placed.insert card from h.placed_of_none rfl, BitSet.erase_insert hcard]
  have hused : st'.used = st.used := h.used_of_none rfl
  refine Outcome.of_none (h.sound.giveUp ?_) hplaced hused h.kept
  rw [hplaced, hused]
  exact hdead

/-- **Placing the remaining cards finds the first completion**, whether dead states are stored or not. -/
theorem outcome_place (memoize : Bool) (options : List BitSet) (remaining : ℕ) :
    PlacesFirst memoize options remaining := by
  induction remaining with
  | zero =>
    intro st hst hremaining
    have hempty : unplaced options st.placed = ∅ := Finset.card_eq_zero.mp hremaining.symm
    rw [hempty]
    exact
      { sound := hst
        fst_eq := rfl
        kept := fun _ _ => rfl
        placed_of_none := fun hnone => absurd hnone (Option.some_ne_none _)
        used_of_none := fun hnone => absurd hnone (Option.some_ne_none _)
        unplaced_of_some := fun _ _ => hempty
        used_of_some := fun _ _ set => by simp [place]
        chosen_of_some := fun _ _ card hcard => absurd hcard (Finset.notMem_empty card) }
  | succ remaining ih =>
    intro st hst hremaining
    have hfirst := firstCompletion_eq_none_iff hst.room hremaining
    rw [place]
    split
    · next hstored =>
      -- a stored state is dead, so there is nothing to be found
      rw [Bool.and_eq_true] at hstored
      rw [hfirst.mpr (hst.dead (st.placed, st.used) hstored.2)]
      exact Outcome.of_none hst.visit.hit rfl rfl fun _ _ => rfl
    · obtain ⟨card, hnext, hcard⟩ := exists_mostConstrained st.used hremaining
      have htry := outcome_tryEach_place ih hst.visit hremaining hnext hcard
      simp only [State.visit_placed, State.visit_used] at htry ⊢
      rw [hnext]
      dsimp only
      split
      · next st' hres =>
        rw [hres] at htry
        obtain ⟨f, hf⟩ := Option.isSome_iff_exists.mp htry.fst_eq.symm
        rw [hf] at htry ⊢
        exact htry.congr (fun hnone => absurd hnone (Option.some_ne_none f)) rfl fun _ _ => rfl
      · next st' hres =>
        rw [hres] at htry
        have hnone : firstCompletion options (remaining + 1) st.placed st.used = none := htry.eq_none rfl
        rw [hnone] at htry ⊢
        have hgive : Outcome options (unplaced options st.placed) st.visit none (false, st'.giveUp memoize card) :=
          Outcome.giveUp (mem_unplaced.mp hcard).2 (hfirst.mp hnone) htry
        exact hgive.congr (fun _ => rfl) rfl fun _ _ => rfl

end Search

end DeckLegality
