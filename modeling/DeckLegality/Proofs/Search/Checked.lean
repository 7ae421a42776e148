import DeckLegality.Proofs.Search.Calls

/-!
# The search with its indices checked

The steps of a search are total: a number for which a bit set has no room is passed over, and so is an entry that a list
does not have.  If one of these ever came up, the search would go on with a state that does not say what was done.
`place?` takes the same steps and stops as soon as

* a card has no room among the cards placed, or a set among the sets used, where it is put in or taken out;
* a card has no entry for its set;
* a card is left to place, and none comes next.

None of this comes up: from a ready call on, `place?` does what `place` does (`Ready.place?_eq_some`).  Room is kept by
every step, since bit sets and lists keep their lengths, and a set that was chosen still has room when it is taken back.
-/

namespace DeckLegality

namespace Search

/-! ## Checked steps -/

namespace State

/-- The card is taken, if it has room among the cards placed. -/
def take? (st : State) (card : ℕ) : Option State :=
  if card < st.placed.capacity then some (st.take card) else none

/-- The set is chosen for the card, if it has room among the sets used and the card has an entry. -/
def choose? (st : State) (card set : ℕ) : Option State :=
  if set < st.used.capacity ∧ card < st.chosen.length then some (st.choose card set) else none

/-- The choice of the set is taken back, if it has room among the sets used. -/
def takeBack? (st : State) (set : ℕ) : Option State :=
  if set < st.used.capacity then some (st.takeBack set) else none

/-- The card is given up, if it has room among the cards placed. -/
def giveUp? (st : State) (memoize : Bool) (card : ℕ) : Option State :=
  if card < st.placed.capacity then some (st.giveUp memoize card) else none

end State

/-- Tries some sets for a card in turn, with every step checked. -/
def tryEach? (next : State → Option (Bool × State)) (card : ℕ) : List ℕ → State → Option (Bool × State)
  | [], st => some (false, st)
  | set :: sets, st => do
    let (found, st') ← next (← st.choose? card set)
    if found then pure (true, st') else tryEach? next card sets (← st'.takeBack? set)

/-- Places the remaining cards, with every step checked; there has to be a card that comes next. -/
def place? (memoize : Bool) (options : List BitSet) : (remaining : ℕ) → State → Option (Bool × State)
  | 0, st => some (true, st)
  | remaining + 1, st =>
    if st.isStored memoize then some (false, st.visit.hit)
    else do
      let (card, available) ← mostConstrained options st.placed st.used
      let (found, st') ← tryEach? (place? memoize options remaining) card available.toList (← st.visit.take? card)
      if found then pure (true, st') else pure (false, ← st'.giveUp? memoize card)

variable {memoize : Bool} {options : List BitSet} {remaining card set : ℕ} {st st' : State} {todo : Finset ℕ}

/-! ## The sets of one card -/

/-- A choice that succeeds is made in bounds. -/
theorem tryEach?_of_success {next : State → Option (Bool × State)} (hset : set < st.used.capacity)
    (hcard : card < st.chosen.length) (hnext : next (st.choose card set) = some (true, st')) (sets : List ℕ) :
    tryEach? next card (set :: sets) st = some (true, st') := by
  rw [tryEach?, State.choose?, if_pos ⟨hset, hcard⟩]
  simp only [Option.bind_eq_bind, Option.bind_some, hnext, if_true, Option.pure_def]

/-- A choice that fails is made and taken back in bounds. -/
theorem tryEach?_of_failure {next : State → Option (Bool × State)} (hset : set < st.used.capacity)
    (hcard : card < st.chosen.length) (hnext : next (st.choose card set) = some (false, st'))
    (hset' : set < st'.used.capacity) (sets : List ℕ) :
    tryEach? next card (set :: sets) st = tryEach? next card sets (st'.takeBack set) := by
  rw [tryEach?, State.choose?, if_pos ⟨hset, hcard⟩]
  simp only [Option.bind_eq_bind, Option.bind_some, hnext, Bool.false_eq_true, if_false, State.takeBack?, if_pos hset']

/-- In a sound state every card has an entry, also before a choice. -/
theorem Sound.lt_length_of_choose (h : Sound options (st.choose card set)) (hcard : card < options.length) :
    card < st.chosen.length := by
  have hlength := h.length_chosen
  rw [State.choose, List.length_set] at hlength
  rwa [hlength]

/-- Trying sets that have room stays in bounds, if placing the other cards does. -/
theorem tryEach?_eq_some {next : State → Bool × State} {next? : State → Option (Bool × State)}
    {below : BitSet → Option (ℕ → ℕ)} {placed : BitSet} (hcard : card < options.length)
    (hnext : ∀ st, Sound options st → st.placed = placed → Outcome options todo st (below st.used) (next st))
    (hnext? : ∀ st, Sound options st → st.placed = placed → next? st = some (next st))
    {sets : List ℕ} (hst : Sound options st) (hplaced : st.placed = placed)
    (hfresh : ∀ set ∈ sets, st.used.contains set = false) (hroom : ∀ set ∈ sets, set < st.used.capacity) :
    tryEach? next? card sets st = some (tryEach next card sets st) := by
  refine tryEach_induction (motive := fun sets st result =>
    (∀ set ∈ sets, set < st.used.capacity) → tryEach? next? card sets st = some result)
    hnext ?nil ?success ?failure hst hplaced hfresh hroom
  case nil => exact fun _ _ => rfl
  case success =>
    intro set sets st st' hchoose hplaced hres hroom
    have hbelow := hnext? _ hchoose hplaced
    rw [hres] at hbelow
    exact tryEach?_of_success (List.forall_mem_cons.mp hroom).1 (hchoose.lt_length_of_choose hcard) hbelow sets
  case failure =>
    intro set sets st st' result hchoose hplaced hres hused ih hroom
    obtain ⟨hset, hrest⟩ := List.forall_mem_cons.mp hroom
    have hbelow := hnext? _ hchoose hplaced
    rw [hres] at hbelow
    -- the sets used are those from before, so the other sets have room as well
    have hcapacity : st'.used.capacity = st.used.capacity := by rw [← hused, State.takeBack, BitSet.capacity_erase]
    rw [tryEach?_of_failure hset (hchoose.lt_length_of_choose hcard) hbelow (by rwa [hcapacity]) sets]
    exact ih (by rwa [hused])

/-! ## All cards -/

theorem place?_of_isStored (h : st.isStored memoize = true) :
    place? memoize options (remaining + 1) st = some (false, st.visit.hit) := by
  rw [place?, if_pos h]

/-- With a card that comes next and has room, all depends on how its sets are tried. -/
theorem place?_of_takes {result : Bool × State} (h : Takes memoize options remaining st card result)
    (hcard : card < st.placed.capacity)
    (htry : tryEach? (place? memoize options remaining) card (left options st.used card).toList (st.visit.take card) =
      some result) :
    place? memoize options (remaining + 1) st =
      if result.1 then some (true, result.2) else (result.2.giveUp? memoize card).bind fun st => some (false, st) := by
  have htake : st.visit.take? card = some (st.visit.take card) := if_pos hcard
  rw [place?, if_neg (Bool.eq_false_iff.mp h.not_stored), h.next]
  simp only [Option.bind_eq_bind, Option.bind_some, htake, htry, Option.pure_def]

namespace Takes

variable {result : Bool × State}

/-- The card that is taken has room among the cards placed. -/
theorem lt_capacity (h : Takes memoize options remaining st card result) (hst : Ready options (remaining + 1) st) :
    card < st.placed.capacity :=
  lt_of_lt_of_le (Search.mem_unplaced.mp h.mem_unplaced).1 hst.sound.room.card_lt

/-- And it still has when it is given up. -/
theorem lt_capacity_of_failure (h : Takes memoize options remaining st card (false, st'))
    (hst : Ready options (remaining + 1) st) : card < st'.placed.capacity := by
  have hout := h.outcome hst
  have hplaced : st'.placed = st.placed.insert card := hout.placed_of_none (hout.eq_none rfl)
  rw [hplaced, BitSet.capacity_insert]
  exact h.lt_capacity hst

/-- The sets of the card are tried in bounds, if the calls below stay in bounds. -/
theorem tryEach?_eq (h : Takes memoize options remaining st card result) (hst : Ready options (remaining + 1) st)
    (hbelow : ∀ st, Ready options remaining st →
      place? memoize options remaining st = some (place memoize options remaining st)) :
    tryEach? (place? memoize options remaining) card (left options st.used card).toList (st.visit.take card) =
      some result := by
  rw [← h.tried]
  exact tryEach?_eq_some (Search.mem_unplaced.mp h.mem_unplaced).1 (h.outcome_below hst)
    (fun st₁ hsound hplaced => hbelow st₁ (h.ready_below hst hsound hplaced)) (hst.sound.visit.take card) rfl
    (fun _ => Takes.fresh) fun set hset => hst.sound.room.lt_of_contains_left (BitSet.mem_toList.mp hset)

end Takes

/-- **A ready call stays in bounds, and a card comes next as long as one is left to place.** -/
theorem Ready.place?_eq_some (h : Ready options remaining st) (memoize : Bool) :
    place? memoize options remaining st = some (place memoize options remaining st) := by
  induction remaining generalizing st with
  | zero => rfl
  | succ remaining ih =>
    have hends := ends_place memoize options remaining st
    generalize place memoize options (remaining + 1) st = result at hends ⊢
    cases hends with
    | stored hstored => exact place?_of_isStored hstored
    | stuck hnone => exact absurd hnone h.mostConstrained_ne_none
    | found htakes =>
      exact place?_of_takes htakes (htakes.lt_capacity h) (htakes.tryEach?_eq h fun _ => ih)
    | @gaveUp card st' htakes =>
      have hgive : st'.giveUp? memoize card = some (st'.giveUp memoize card) := if_pos (htakes.lt_capacity_of_failure h)
      rw [place?_of_takes htakes (htakes.lt_capacity h) (htakes.tryEach?_eq h fun _ => ih), if_neg Bool.false_ne_true,
        hgive, Option.bind_some]

end Search

end DeckLegality
