import DeckLegality.Proofs.Search.Balance

/-!
# What a search counts

A search counts the states that it enters and the choices that fail.  `Counted` is an outcome together with these two
numbers, and `Counted.orElse` is what trying one choice after another does to them: a success ends the matter, after a
failure the choice is counted and the next one is tried.

`countedCompletion` is `firstCompletion` with the two counters.  It carries no state along, so it is a function of the
cards placed and the sets used alone, and a search in other terms can be compared with it step by step.

* `costsAtMost_place`: the counters of `place` grow by at most what it counts, and by exactly that if no stored state is
  met; so a search with memoisation never does more than one without.
* `stats_place`: without memoisation they grow by exactly what it counts.
-/

namespace DeckLegality

/-- What a search found, the states that it entered with something left to do, and the choices that failed. -/
structure Counted (α : Type) where
  found : Option α
  nodes : ℕ
  backtracks : ℕ

namespace Counted

variable {α β γ : Type}

/-- A success without any work. -/
def success (b : β) : Counted β := ⟨some b, 0, 0⟩

/-- A failure without any work. -/
def failure : Counted β := ⟨none, 0, 0⟩

/-- The same search with what it found put differently. -/
def map (g : β → γ) (x : Counted β) : Counted γ := ⟨x.found.map g, x.nodes, x.backtracks⟩

/-- The search behind one more state that is entered. -/
def enter (x : Counted β) : Counted β := { x with nodes := x.nodes + 1 }

/-- The search for one choice and, if the choice fails, the search for the choices after it. -/
def orElse (x y : Counted β) : Counted β :=
  match x.found with
  | some _ => x
  | none => ⟨y.found, x.nodes + y.nodes, x.backtracks + 1 + y.backtracks⟩

/-- Tries choices in turn until one of them succeeds. -/
def firstSuccess (attempt : α → Counted β) : List α → Counted β
  | [] => failure
  | a :: l => (attempt a).orElse (firstSuccess attempt l)

theorem orElse_of_some {x : Counted β} {b : β} (h : x.found = some b) (y : Counted β) : x.orElse y = x := by
  rw [orElse, h]

theorem orElse_of_none {x : Counted β} (h : x.found = none) (y : Counted β) :
    x.orElse y = ⟨y.found, x.nodes + y.nodes, x.backtracks + 1 + y.backtracks⟩ := by
  rw [orElse, h]

theorem found_orElse (x y : Counted β) : (x.orElse y).found = x.found.or y.found := by
  cases h : x.found with
  | some b => rw [orElse_of_some h, h, Option.some_or]
  | none => rw [orElse_of_none h, Option.none_or]

theorem map_orElse (g : β → γ) (x y : Counted β) : (x.orElse y).map g = (x.map g).orElse (y.map g) := by
  obtain ⟨found, nodes, backtracks⟩ := x
  cases found <;> rfl

theorem map_enter (g : β → γ) (x : Counted β) : x.enter.map g = (x.map g).enter := rfl

/-- What is found is what the first successful choice finds. -/
theorem found_firstSuccess (attempt : α → Counted β) (l : List α) :
    (firstSuccess attempt l).found = l.findSome? fun a => (attempt a).found := by
  induction l with
  | nil => rfl
  | cons a l ih =>
    rw [firstSuccess, found_orElse, ih, List.findSome?_cons]
    cases (attempt a).found <;> rfl

theorem map_firstSuccess (g : β → γ) (attempt : α → Counted β) (l : List α) :
    (firstSuccess attempt l).map g = firstSuccess (fun a => (attempt a).map g) l := by
  induction l with
  | nil => rfl
  | cons a l ih => rw [firstSuccess, map_orElse, ih, firstSuccess]

/-- Choices under other names are the same choices. -/
theorem firstSuccess_map {δ : Type} (attempt : α → Counted β) (f : δ → α) (l : List δ) :
    firstSuccess attempt (l.map f) = firstSuccess (fun d => attempt (f d)) l := by
  induction l with
  | nil => rfl
  | cons d l ih => rw [List.map_cons, firstSuccess, ih, firstSuccess]

theorem firstSuccess_congr {attempt attempt' : α → Counted β} {l : List α}
    (h : ∀ a ∈ l, attempt a = attempt' a) : firstSuccess attempt l = firstSuccess attempt' l := by
  induction l with
  | nil => rfl
  | cons a l ih =>
    obtain ⟨ha, hl⟩ := List.forall_mem_cons.mp h
    rw [firstSuccess, firstSuccess, ha, ih hl]

end Counted

/-! ## Adding to the counters of a search -/

/-- The counters after a search has been done. -/
def SearchStats.plus {α : Type} (s : SearchStats) (x : Counted α) : SearchStats :=
  { s with nodesVisited := s.nodesVisited + x.nodes, backtracks := s.backtracks + x.backtracks }

/-- A choice that fails is counted before the choices after it. -/
theorem SearchStats.plus_orElse {α : Type} (s : SearchStats) {x : Counted α} (h : x.found = none) (y : Counted α) :
    s.plus (x.orElse y) = { s.plus x with backtracks := (s.plus x).backtracks + 1 }.plus y := by
  rw [Counted.orElse_of_none h]
  simp only [SearchStats.plus, Nat.add_assoc]

theorem SearchStats.plus_enter {α : Type} (s : SearchStats) (x : Counted α) :
    s.plus x.enter = { s with nodesVisited := s.nodesVisited + 1 }.plus x := by
  simp only [SearchStats.plus, Counted.enter, Nat.add_assoc, Nat.add_comm 1]

namespace Search

open Counted

/-- The first completion in the order in which the search tries the sets of the card that comes next, with what a
search for it counts. -/
def countedCompletion (options : List BitSet) : (remaining : ℕ) → (placed used : BitSet) → Counted (ℕ → ℕ)
  | 0, _, _ => success fun _ => 0
  | remaining + 1, placed, used =>
    match mostConstrained options placed used with
    | none => failure.enter
    | some (card, available) =>
      (firstSuccess (fun set => (countedCompletion options remaining (placed.insert card) (used.insert set)).map
        fun f => Function.update f card set) available.toList).enter

variable {options : List BitSet} {remaining card : ℕ} {placed used : BitSet} {st : State} {todo : Finset ℕ}

theorem countedCompletion_succ (hnext : mostConstrained options placed used = some (card, left options used card)) :
    countedCompletion options (remaining + 1) placed used =
      (firstSuccess (fun set => (countedCompletion options remaining (placed.insert card) (used.insert set)).map
        fun f => Function.update f card set) (left options used card).toList).enter := by
  rw [countedCompletion, hnext]

/-- Counting does not change what is found. -/
theorem found_countedCompletion (options : List BitSet) (remaining : ℕ) (placed used : BitSet) :
    (countedCompletion options remaining placed used).found = firstCompletion options remaining placed used := by
  induction remaining generalizing placed used with
  | zero => rfl
  | succ remaining ih =>
    rw [countedCompletion, firstCompletion]
    cases mostConstrained options placed used with
    | none => rfl
    | some next =>
      show (firstSuccess _ next.2.toList).found = _
      rw [found_firstSuccess]
      simp only [Counted.map, ih]

/-! ## The counters of the search -/

/-- From the counters `s` to the counters `s'` the search enters at most as many states and takes back at most as many
choices as are counted, and exactly as many if it meets no stored state. -/
structure CostsAtMost (s s' : SearchStats) (x : Counted (ℕ → ℕ)) : Prop where
  nodes_le : s'.nodesVisited ≤ s.nodesVisited + x.nodes
  backtracks_le : s'.backtracks ≤ s.backtracks + x.backtracks
  memoHits_le : s.memoHits ≤ s'.memoHits
  eq_plus : s'.memoHits = s.memoHits → s' = s.plus x

/-- It does not matter what is found. -/
theorem CostsAtMost.map {s s' : SearchStats} {x : Counted (ℕ → ℕ)} (h : CostsAtMost s s' x) (g : (ℕ → ℕ) → ℕ → ℕ) :
    CostsAtMost s s' (x.map g) :=
  ⟨h.nodes_le, h.backtracks_le, h.memoHits_le, h.eq_plus⟩

/-- A choice that fails is counted, and then the choices after it are. -/
theorem CostsAtMost.orElse {s s₁ s₂ : SearchStats} {x y : Counted (ℕ → ℕ)} (hfound : x.found = none)
    (h : CostsAtMost s s₁ x) (h' : CostsAtMost { s₁ with backtracks := s₁.backtracks + 1 } s₂ y) :
    CostsAtMost s s₂ (x.orElse y) := by
  have hhits : s₁.memoHits ≤ s₂.memoHits := h'.memoHits_le
  have hhits' := h.memoHits_le
  have hnodes : s₂.nodesVisited ≤ s₁.nodesVisited + y.nodes := h'.nodes_le
  have hnodes' := h.nodes_le
  have hbacktracks : s₂.backtracks ≤ s₁.backtracks + 1 + y.backtracks := h'.backtracks_le
  have hbacktracks' := h.backtracks_le
  refine ⟨?_, ?_, by omega, fun heq => ?_⟩
  · rw [orElse_of_none hfound]
    show s₂.nodesVisited ≤ s.nodesVisited + (x.nodes + y.nodes)
    omega
  · rw [orElse_of_none hfound]
    show s₂.backtracks ≤ s.backtracks + (x.backtracks + 1 + y.backtracks)
    omega
  · -- with no hit over all there is none before and none after the choice that failed
    have hnone : s₁.memoHits = s.memoHits := by omega
    have hnone' : s₂.memoHits = s₁.memoHits := by omega
    have hbefore : s₁ = s.plus x := h.eq_plus hnone
    have hafter : s₂ = { s₁ with backtracks := s₁.backtracks + 1 }.plus y := h'.eq_plus hnone'
    rw [hafter, hbefore, SearchStats.plus_orElse s hfound]

/-- Trying sets in turn costs at most what a search for the first success counts. -/
theorem costsAtMost_tryEach (card : ℕ) {next : State → Bool × State} {below : BitSet → Counted (ℕ → ℕ)}
    (hnext : ∀ st, Sound options st → st.placed = placed →
      Outcome options todo st (below st.used).found (next st) ∧ CostsAtMost st.stats (next st).2.stats (below st.used))
    {sets : List ℕ} (hst : Sound options st) (hplaced : st.placed = placed)
    (hfresh : ∀ set ∈ sets, st.used.contains set = false) :
    CostsAtMost st.stats (tryEach next card sets st).2.stats
      (firstSuccess (fun set => (below (st.used.insert set)).map fun f => Function.update f card set) sets) := by
  have hout : ∀ st, Sound options st → st.placed = placed →
      Outcome options todo st ((Counted.found ∘ below) st.used) (next st) :=
    fun st hst hplaced => (hnext st hst hplaced).1
  refine tryEach_induction (motive := fun sets st result => CostsAtMost st.stats result.2.stats
      (firstSuccess (fun set => (below (st.used.insert set)).map fun f => Function.update f card set) sets))
    hout ?nil ?success ?failure hst hplaced hfresh
  case nil => exact fun st => ⟨Nat.le_refl _, Nat.le_refl _, Nat.le_refl _, fun _ => rfl⟩
  case success =>
    intro set sets st st' hchoose hplaced hres
    obtain ⟨hout, hcosts⟩ := hnext _ hchoose hplaced
    rw [hres] at hout hcosts
    obtain ⟨f, hf⟩ := Option.isSome_iff_exists.mp hout.fst_eq.symm
    have hfound : (below (st.used.insert set)).found = some f := hf
    rw [firstSuccess, orElse_of_some (by rw [Counted.map, hfound, Option.map_some])]
    exact hcosts.map _
  case failure =>
    intro set sets st st' result hchoose hplaced hres hused hrest
    obtain ⟨hout, hcosts⟩ := hnext _ hchoose hplaced
    rw [hres] at hout hcosts
    have hfound : (below (st.used.insert set)).found = none := hout.eq_none rfl
    rw [hused] at hrest
    rw [firstSuccess]
    exact CostsAtMost.orElse (by rw [Counted.map, hfound, Option.map_none]) (hcosts.map _) hrest

/-- A call with a card left enters a state. -/
theorem one_le_nodes_countedCompletion (options : List BitSet) (remaining : ℕ) (placed used : BitSet) :
    1 ≤ (countedCompletion options (remaining + 1) placed used).nodes := by
  rw [countedCompletion]
  cases mostConstrained options placed used with
  | none => exact Nat.le_refl 1
  | some next => exact Nat.le_add_left 1 _

/-- What every call with the given number of cards left costs. -/
def AllCostAtMost (memoize : Bool) (options : List BitSet) (remaining : ℕ) : Prop :=
  ∀ st, Ready options remaining st →
    CostsAtMost st.stats (place memoize options remaining st).2.stats
      (countedCompletion options remaining st.placed st.used)

/-- Taking a card costs at most what is counted on the way to the first completion, with the state that is entered. -/
theorem Takes.costsAtMost {memoize : Bool} {result : Bool × State} (h : Takes memoize options remaining st card result)
    (hbelow : AllCostAtMost memoize options remaining) (hst : Ready options (remaining + 1) st) :
    CostsAtMost st.stats result.2.stats (countedCompletion options (remaining + 1) st.placed st.used) := by
  have hnext : ∀ st₁, Sound options st₁ → st₁.placed = st.placed.insert card →
      Outcome options (unplaced options (st.placed.insert card)) st₁
        (countedCompletion options remaining (st.placed.insert card) st₁.used).found
        (place memoize options remaining st₁) ∧
      CostsAtMost st₁.stats (place memoize options remaining st₁).2.stats
        (countedCompletion options remaining (st.placed.insert card) st₁.used) := by
    intro st₁ hsound hplaced
    refine ⟨?_, ?_⟩
    · rw [found_countedCompletion]
      exact h.outcome_below hst st₁ hsound hplaced
    · rw [← hplaced]
      exact hbelow st₁ (h.ready_below hst hsound hplaced)
  have hfresh : ∀ set ∈ (left options st.used card).toList, st.used.contains set = false := fun _ => Takes.fresh
  have htry := costsAtMost_tryEach card hnext (hst.sound.visit.take card) rfl hfresh
  rw [h.tried] at htry
  rw [countedCompletion_succ h.next]
  refine ⟨htry.nodes_le.trans_eq (Nat.add_right_comm ..), htry.backtracks_le, htry.memoHits_le, fun heq => ?_⟩
  exact (htry.eq_plus heq).trans (SearchStats.plus_enter st.stats _).symm

/-- **The cost of a call**: it is no more than what is counted on the way to the first completion, and exactly that if no
stored state is met. -/
theorem costsAtMost_place (memoize : Bool) (options : List BitSet) (remaining : ℕ) :
    AllCostAtMost memoize options remaining := by
  induction remaining with
  | zero => exact fun st _ => ⟨Nat.le_refl _, Nat.le_refl _, Nat.le_refl _, fun _ => rfl⟩
  | succ remaining ih =>
    intro st hst
    have hends := ends_place memoize options remaining st
    generalize place memoize options (remaining + 1) st = result at hends ⊢
    cases hends with
    | stored =>
      have hone := one_le_nodes_countedCompletion options remaining st.placed st.used
      exact ⟨Nat.add_le_add_left hone _, Nat.le_add_right .., Nat.le_succ _, fun heq => absurd heq (Nat.succ_ne_self _)⟩
    | stuck h => exact absurd h hst.mostConstrained_ne_none
    | found htakes => exact htakes.costsAtMost ih hst
    | @gaveUp card st' htakes =>
      -- giving the card up does not touch the counters
      show CostsAtMost st.stats st'.stats _
      exact htakes.costsAtMost ih hst

/-- **The counters of the search without memoisation** grow by what is counted on the way to the first completion. -/
theorem stats_place (hst : Sound options st) (hremaining : remaining = (unplaced options st.placed).card) :
    (place false options remaining st).2.stats =
      st.stats.plus (countedCompletion options remaining st.placed st.used) :=
  (costsAtMost_place false options remaining st ⟨hst, hremaining⟩).eq_plus (memoHits_place_false options remaining st)

end Search

end DeckLegality
