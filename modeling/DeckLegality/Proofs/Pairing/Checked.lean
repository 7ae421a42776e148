import DeckLegality.Proofs.Pairing.Calls
import DeckLegality.Proofs.Search.Checked

/-!
# A solve with its indices checked

Before a search the sets are looked up among all sets, and their numbers are put into masks; after it the numbers that were
chosen are looked up again.  `Candidates.solve?` is a solve that stops wherever such a number is not there or has no room,
and wherever the search would leave its bounds (`Search.place?`).

* `options?_eq_some`: every set of every card has a number, and the masks have room for it.
* `pairingOf?_eq_some`: after a success every card has the number of a set.
* `solve?_eq_some`: so no solve stops, and all calls of its search are told the number of cards that are left.
-/

namespace DeckLegality

namespace Candidates

open Search

/-! ## Checked steps -/

/-- The sets of one card by their numbers, if each of them is among the sets `codes` and has room in the mask. -/
def mask? (codes : List SetCode) (candidates : SetCodes) : Option BitSet :=
  candidates.toList.foldlM (fun s code => (codes.idxOf? code).bind s.insert?) (.withWidth codes.length)

/-- The sets of each card by their numbers. -/
def options? (c : Candidates) : Option (List BitSet) := c.entries.mapM fun e => mask? c.codes.toList e.2

/-- The pairing of the cards with the sets of the given numbers, if there are sets with these numbers. -/
def pairingOf? (c : Candidates) (chosen : List ℕ) : Option Pairing :=
  ((c.names.zip chosen).mapM fun p => c.codes.toList[p.2]?.map (p.1, ·)).map .ofList

/-- Searches for a pairing, with every step checked. -/
def solve? (c : Candidates) (memoize : Bool) : Option SearchReport :=
  if c.codes.size < c.size then some ⟨none, {}⟩
  else do
    let (found, st) ← place? memoize (← c.options?) c.size c.start
    if found then pure ⟨some (← c.pairingOf? st.chosen), st.stats⟩ else pure ⟨none, st.stats⟩

variable {c : Candidates} {memoize : Bool}

/-- Where every step gives something, all of them together give what there is to be had. -/
theorem mapM_eq_some_filterMap {α β : Type} {f : α → Option β} {l : List α} (h : ∀ a ∈ l, (f a).isSome = true) :
    l.mapM f = some (l.filterMap f) := by
  induction l with
  | nil => rfl
  | cons a l ih =>
    obtain ⟨ha, hl⟩ := List.forall_mem_cons.mp h
    obtain ⟨b, hb⟩ := Option.isSome_iff_exists.mp ha
    rw [List.mapM_cons, hb, ih hl, List.filterMap_cons_some hb]
    rfl

/-! ## Masks -/

theorem idxOf?_eq_some {codes : List SetCode} {code : SetCode} (h : code ∈ codes) :
    codes.idxOf? code = some (codes.idxOf code) := by
  obtain ⟨i, hi⟩ := Option.isSome_iff_exists.mp (List.isSome_idxOf?.mpr h)
  rw [List.idxOf_eq_getD_idxOf?, hi, Option.getD_some]

theorem foldlM_insert?_eq_some {codes l : List SetCode} {s : BitSet} (hcap : codes.length ≤ s.capacity)
    (hl : ∀ code ∈ l, code ∈ codes) :
    l.foldlM (fun s code => (codes.idxOf? code).bind s.insert?) s =
      some (l.foldl (fun s code => s.insert (codes.idxOf code)) s) := by
  induction l generalizing s with
  | nil => rfl
  | cons code l ih =>
    obtain ⟨hcode, hl⟩ := List.forall_mem_cons.mp hl
    have hlt : codes.idxOf code < s.capacity := (List.idxOf_lt_length_iff.mpr hcode).trans_le hcap
    have hinsert : s.insert? (codes.idxOf code) = some (s.insert (codes.idxOf code)) := if_pos hlt
    rw [List.foldlM_cons, List.foldl_cons, idxOf?_eq_some hcode, Option.bind_some, hinsert]
    exact ih (by rwa [BitSet.capacity_insert]) hl

theorem mask?_eq_some {codes : List SetCode} {candidates : SetCodes} (h : ∀ code ∈ candidates, code ∈ codes) :
    mask? codes candidates = some (mask codes candidates) :=
  foldlM_insert?_eq_some (BitSet.le_capacity_withWidth codes.length) h

/-- All sets are there, and have room. -/
theorem options?_eq_some (c : Candidates) : c.options? = some c.options := by
  have hmask : ∀ e ∈ c.entries, mask? c.codes.toList e.2 = some (mask c.codes.toList e.2) :=
    fun e he => mask?_eq_some fun code hcode => mem_codes.mpr ⟨e, he, hcode⟩
  rw [options?, mapM_eq_some_filterMap fun e he => by rw [hmask e he, Option.isSome_some],
    List.filterMap_congr hmask]
  exact congrArg some (congrFun List.filterMap_eq_map' c.entries)

/-! ## Pairings -/

theorem pairingOf?_eq_some {chosen : List ℕ} (h : ∀ set ∈ chosen, set < c.codes.toList.length) :
    c.pairingOf? chosen = some (c.pairingOf chosen) := by
  have hsome : ∀ p ∈ c.names.zip chosen, (c.codes.toList[p.2]?.map (p.1, ·)).isSome = true := by
    intro p hp
    rw [List.getElem?_eq_getElem (h p.2 (List.of_mem_zip hp).2)]
    rfl
  rw [pairingOf?, mapM_eq_some_filterMap hsome]
  rfl

/-- After a success every card has the number of a set. -/
theorem lt_of_mem_chosen (hfound : (place memoize c.options c.size c.start).1 = true) :
    ∀ set ∈ (place memoize c.options c.size c.start).2.chosen, set < c.codes.toList.length := by
  intro set hset
  have hlength := (outcome_place memoize c.options c.size c.start c.sound_start c.card_unplaced_start.symm).sound.length_chosen
  obtain ⟨card, hcard⟩ := List.mem_iff_getElem?.mp hset
  have hlt : card < c.size := by
    rw [← length_options, ← hlength]
    exact (List.getElem?_eq_some_iff.mp hcard).1
  obtain ⟨set', hset', hleft⟩ := (c.ready_start.filled hfound).chosen card (mem_unplaced_start.mpr hlt)
  obtain rfl : set = set' := Option.some.inj (hcard.symm.trans hset')
  obtain ⟨e, he, -⟩ := exists_entry hlt
  obtain ⟨code, hcode, -⟩ := (contains_left_start he set).mp hleft
  exact (List.getElem?_eq_some_iff.mp hcode).1

/-! ## The solve -/

/-- **A solve never leaves its bounds.**  Every number that it uses is there: of a set among all sets, of a card and of a
set in the bit sets, of a card among the entries, and of a set that was chosen.  And at every call the search is told how
many cards are left to place; so as long as it has one to place, some card comes next. -/
theorem solve?_eq_some (c : Candidates) (memoize : Bool) :
    c.solve? memoize = some (c.solve memoize) ∧
    ∀ remaining st, c.Reaches memoize remaining st →
      (unplaced c.options st.placed).card = remaining ∧
      (0 < remaining → mostConstrained c.options st.placed st.used ≠ none) := by
  refine ⟨?_, fun remaining st hreaches => ⟨hreaches.ready.remaining_eq.symm, fun hpos => ?_⟩⟩
  · rw [solve?, solve]
    split
    · rfl
    · rw [options?_eq_some]
      simp only [Option.bind_eq_bind, Option.bind_some, c.ready_start.place?_eq_some memoize]
      have hchosen := @lt_of_mem_chosen c memoize
      generalize place memoize c.options c.size c.start = result at hchosen ⊢
      obtain ⟨found, st⟩ := result
      cases found with
      | true => rw [if_pos rfl, pairingOf?_eq_some (hchosen rfl)]; rfl
      | false => rfl
  · obtain ⟨remaining, rfl⟩ := Nat.exists_eq_succ_of_ne_zero hpos.ne'
    exact hreaches.ready.mostConstrained_ne_none

theorem solve?_eq_some_contested :
    contested.solve? false = some (contested.solve false) ∧
      contested.Reaches false 2 contestedBelow ∧ (unplaced contested.options contestedBelow.placed).card = 2 ∧
      mostConstrained contested.options contestedBelow.placed contestedBelow.used ≠ none := by
  obtain ⟨hsolve, hcalls⟩ := solve?_eq_some contested false
  obtain ⟨hcard, hnext⟩ := hcalls 2 contestedBelow reaches_contestedBelow
  exact ⟨hsolve, reaches_contestedBelow, hcard, hnext (by decide)⟩

end Candidates

end DeckLegality
