import DeckLegality.Proofs.Pairing.Contents
import DeckLegality.Proofs.Pairing.Solve
import DeckLegality.Proofs.Search.Counted
import Mathlib.Data.List.MinMax

/-!
# The search without numbers

`Candidates.procedure` says how a pairing is searched for in the words of cards and set codes alone.  It takes the
card with the fewest sets, the first one of several, and tries these sets in ascending order.  With each of them it
goes on with the candidates of the other cards, from which the set is taken away: these are candidates again, made
anew for every choice, and nothing has to be undone.

The solver does the same on numbers and bits, with one state for the whole search.  What links the two is
`Candidates.leftAt`, the candidates that a state stands for.

* `map_toList_left`: the bits that are left for a card, read as set codes, are its sets in ascending order.
* `tightest?_leftAt`: the card that comes next is the card with the fewest sets.
* `restrict_leftAt`: after a choice a state stands for the candidates that the procedure goes on with.
* `search_leftAt`: so both find the same and count the same, from every state.
* `solve_eq_procedure`: the solver without memoisation is the procedure.
-/

namespace DeckLegality

/-- The members with a property. -/
def SortedSet.filter {α : Type} [LT α] (p : α → Bool) (s : SortedSet α) : SortedSet α :=
  ⟨s.toList.filter p, s.ascending.filter p⟩

theorem SortedSet.mem_filter {α : Type} [LT α] {p : α → Bool} {s : SortedSet α} {a : α} :
    a ∈ s.filter p ↔ a ∈ s ∧ p a = true := List.mem_filter

/-- The first element with the least value is found wherever it stands. -/
theorem argmin_append_cons {α : Type} [DecidableEq α] {f : α → ℕ} {l r : List α} {a : α} (hl : ∀ b ∈ l, f a < f b)
    (hr : ∀ b ∈ r, f a ≤ f b) : (l ++ a :: r).argmin f = some a := by
  have hnot : ∀ b, f b ≤ f a → b ∉ l := fun b hb hmem => absurd (hl b hmem) (Nat.not_lt.mpr hb)
  refine List.argmin_eq_some_iff.mpr ⟨by simp, fun b hb => ?_, fun b _ hle => ?_⟩
  · rcases List.mem_append.mp hb with hb | hb
    · exact (hl b hb).le
    · rcases List.mem_cons.mp hb with rfl | hb
      · exact le_rfl
      · exact hr b hb
  · rw [List.idxOf_append_of_notMem (hnot a le_rfl), List.idxOf_append_of_notMem (hnot b hle), List.idxOf_cons_self]
    omega

namespace Candidates

open Counted Search

/-! ## The procedure -/

theorem nodup_map_filter {l : List (CardName × SetCodes)} (h : (l.map (·.1)).Nodup)
    (keep : CardName → Bool) (f : SetCodes → SetCodes) :
    (((l.filter fun e => keep e.1).map fun e => (e.1, f e.2)).map (·.1)).Nodup := by
  rw [List.map_map]
  exact h.sublist (List.filter_sublist.map _)

/-- The candidates of some of the cards, and of their sets only some. -/
def restrict (c : Candidates) (keep : CardName → Bool) (allowed : SetCode → Bool) : Candidates :=
  .ofList ((c.entries.filter fun e => keep e.1).map fun e => (e.1, e.2.filter allowed))

theorem entries_restrict (c : Candidates) (keep : CardName → Bool) (allowed : SetCode → Bool) :
    (c.restrict keep allowed).entries =
      (c.entries.filter fun e => keep e.1).map fun e => (e.1, e.2.filter allowed) :=
  entries_ofList (nodup_map_filter c.nodup keep (·.filter allowed))

/-- The card with the fewest sets, the first one of several, with these sets. -/
def tightest? (c : Candidates) : Option (CardName × SetCodes) := c.entries.argmin (·.2.size)

theorem size_restrict_lt {c : Candidates} {e : CardName × SetCodes} (he : c.tightest? = some e) (code : SetCode) :
    (c.restrict (· ≠ e.1) (· ≠ code)).size < c.size := by
  have hmem : e ∈ c.entries := List.argmin_mem he
  rw [size, size, entries_restrict, List.length_map]
  refine List.length_filter_lt_length_iff_exists.mpr ⟨e, hmem, ?_⟩
  simp

/-- Searches for a pairing: the card with the fewest sets is given each of them in turn, while the other cards go
without that set. -/
def search (c : Candidates) : Counted Pairing :=
  match _h : c.tightest? with
  | none => success ∅
  | some e =>
    (firstSuccess (fun code => (search (c.restrict (· ≠ e.1) (· ≠ code))).map (·.insert e.1 code)) e.2.toList).enter
termination_by c.size
decreasing_by exact size_restrict_lt ‹c.tightest? = some e› code

/-- Searches for a pairing, unless there are more cards than distinct sets. -/
def procedure (c : Candidates) : Counted Pairing :=
  if (c.entries.flatMap (·.2.toList)).toFinset.card < c.size then failure else c.search

theorem search_of_none {c : Candidates} (h : c.tightest? = none) : c.search = success ∅ := by
  rw [search]
  split
  · rfl
  · next e he => exact absurd (h.symm.trans he) (Option.some_ne_none e).symm

theorem search_of_some {c : Candidates} {e : CardName × SetCodes} (h : c.tightest? = some e) :
    c.search = (firstSuccess (fun code => (c.restrict (· ≠ e.1) (· ≠ code)).search.map (·.insert e.1 code))
      e.2.toList).enter := by
  rw [search]
  split
  · next hnone => exact absurd (h.symm.trans hnone) (Option.some_ne_none e)
  · next e' he =>
    obtain rfl := Option.some.inj (h.symm.trans he)
    rfl

/-! ## The candidates of a state -/

theorem restrict_restrict (c : Candidates) (keep keep' : CardName → Bool) (allowed allowed' : SetCode → Bool) :
    (c.restrict keep allowed).restrict keep' allowed' =
      c.restrict (fun n => keep' n && keep n) (fun code => allowed' code && allowed code) := by
  have hsets : ∀ s : SetCodes, (s.filter allowed).filter allowed' =
      s.filter fun code => allowed' code && allowed code := by
    intro s
    simp only [SortedSet.filter, List.filter_filter]
  refine ext_entries ?_
  simp only [entries_restrict, List.filter_map, List.filter_filter, List.map_map, Function.comp_def, hsets]

/-- Candidates of which nothing is kept back are what they were. -/
theorem restrict_true (c : Candidates) : (c.restrict (fun _ => true) fun _ => true) = c := by
  have hsets : ∀ s : SetCodes, (s.filter fun _ => true) = s := by
    intro s
    simp only [SortedSet.filter, List.filter_true]
  refine ext_entries ?_
  simp only [entries_restrict, List.filter_true, hsets, List.map_id']

/-- Only the cards and the sets of the candidates matter to what is kept back. -/
theorem restrict_congr {c : Candidates} {keep keep' : CardName → Bool} {allowed allowed' : SetCode → Bool}
    (hkeep : ∀ n ∈ c.names, keep n = keep' n) (hallowed : ∀ code ∈ c.codes, allowed code = allowed' code) :
    c.restrict keep allowed = c.restrict keep' allowed' := by
  have hsets : ∀ e ∈ c.entries, e.2.filter allowed = e.2.filter allowed' := by
    intro e he
    refine SortedSet.ext_mem fun code => ?_
    rw [SortedSet.mem_filter, SortedSet.mem_filter]
    exact and_congr_right fun hcode => by rw [hallowed code (mem_codes.mpr ⟨e, he, hcode⟩)]
  refine ext_entries ?_
  rw [entries_restrict, entries_restrict, List.filter_congr fun e he => hkeep e.1 (List.mem_map_of_mem he)]
  exact List.map_congr_left fun e he => by rw [hsets e (List.mem_of_mem_filter he)]

/-- The candidates that a state of the search stands for: those of the cards that are not placed, without the sets
that are used. -/
def leftAt (c : Candidates) (placed used : BitSet) : Candidates :=
  c.restrict (fun n => !placed.contains (c.names.idxOf n)) fun code => !used.contains (c.codes.toList.idxOf code)

variable {c : Candidates} {placed used : BitSet} {card set : ℕ} {e : CardName × SetCodes}

theorem leftAt_start (c : Candidates) : c.leftAt c.start.placed c.start.used = c := by
  have htrue : c.leftAt c.start.placed c.start.used = c.restrict (fun _ => true) fun _ => true := by
    refine restrict_congr (fun n _ => ?_) fun code _ => ?_
    · rw [start, BitSet.contains_withWidth, Bool.not_false]
    · rw [start, BitSet.contains_withWidth, Bool.not_false]
  rw [htrue, restrict_true]

/-! ## Sets of a card -/

/-- The sets of a card that are not used. -/
def unused (c : Candidates) (used : BitSet) (codes : SetCodes) : SetCodes :=
  codes.filter fun code => !used.contains (c.codes.toList.idxOf code)

/-- The bits that are left for a card, read as set codes, are its sets that are not used, in ascending order. -/
theorem map_toList_left (he : c.entries[card]? = some e) (used : BitSet) :
    (left c.options used card).toList.map (fun set => c.codes.toList.getD set default) =
      (c.unused used e.2).toList := by
  have hlt : ∀ set ∈ (left c.options used card).toList, set < c.codes.toList.length := by
    intro set hset
    obtain ⟨⟨code, hcode, -⟩, -⟩ := (contains_left_iff he used set).mp (BitSet.mem_toList.mp hset)
    exact (List.getElem?_eq_some_iff.mp hcode).1
  have hascending : ((left c.options used card).toList.map
      (fun set => c.codes.toList.getD set default)).Pairwise (· < ·) := by
    rw [List.pairwise_map]
    refine (BitSet.pairwise_toList _).imp_of_mem fun {a b} ha hb hab => ?_
    rw [List.getD_eq_getElem _ _ (hlt a ha), List.getD_eq_getElem _ _ (hlt b hb)]
    exact List.pairwise_iff_getElem.mp c.codes.ascending a b _ _ hab
  have hmem : ∀ code, code ∈ (⟨_, hascending⟩ : SetCodes) ↔ code ∈ c.unused used e.2 := by
    intro code
    rw [unused, SortedSet.mem_filter, Bool.not_eq_true', ← SortedSet.mem_toList, List.mem_map]
    constructor
    · rintro ⟨set, hset, rfl⟩
      obtain ⟨⟨code, hcode, hmem⟩, hused⟩ := (contains_left_iff he used set).mp (BitSet.mem_toList.mp hset)
      obtain ⟨hset', rfl⟩ := List.getElem?_eq_some_iff.mp hcode
      rw [List.getD_eq_getElem _ _ hset', c.codes.nodup_toList.idxOf_getElem]
      exact ⟨hmem, hused⟩
    · rintro ⟨hcode, hused⟩
      have hin : code ∈ c.codes.toList := mem_codes.mpr ⟨e, List.mem_of_getElem? he, hcode⟩
      have hidx := List.idxOf_lt_length_iff.mpr hin
      refine ⟨c.codes.toList.idxOf code, ?_, ?_⟩
      · rw [BitSet.mem_toList, contains_left_iff he]
        exact ⟨⟨code, by rw [List.getElem?_eq_getElem hidx, List.getElem_idxOf hidx], hcode⟩, hused⟩
      · rw [List.getD_eq_getElem _ _ hidx, List.getElem_idxOf hidx]
  exact congrArg SortedSet.toList (SortedSet.ext_mem hmem)

/-- As many sets are left for a card as it has that are not used. -/
theorem count_left (he : c.entries[card]? = some e) (used : BitSet) :
    (left c.options used card).count = (c.unused used e.2).size := by
  rw [BitSet.count_eq_length_toList, SortedSet.size, ← map_toList_left he, List.length_map]

/-! ## The card that comes next -/

theorem entries_leftAt (c : Candidates) (placed used : BitSet) :
    (c.leftAt placed used).entries =
      (c.entries.filter fun e => !placed.contains (c.names.idxOf e.1)).map fun e => (e.1, c.unused used e.2) :=
  entries_restrict ..

theorem idxOf_entry (he : c.entries[card]? = some e) : c.names.idxOf e.1 = card := by
  obtain ⟨e', he', hidx⟩ := exists_entry (List.getElem?_eq_some_iff.mp he).1
  rwa [Option.some.inj (he.symm.trans he')]

theorem mem_unplaced_iff (he : c.entries[card]? = some e) :
    card ∈ unplaced c.options placed ↔ (!placed.contains (c.names.idxOf e.1)) = true := by
  have hcard : card < c.options.length := by
    rw [length_options]
    exact (List.getElem?_eq_some_iff.mp he).1
  rw [mem_unplaced, idxOf_entry he, Bool.not_eq_true']
  exact and_iff_right hcard

/-- With no card left to place every card is placed. -/
theorem contains_placed (h : unplaced c.options placed = ∅) :
    ∀ n ∈ c.names, placed.contains (c.names.idxOf n) = true := by
  intro n hn
  obtain ⟨-, e, he, rfl⟩ := exists_entry_of_mem hn
  have hun := mt (mem_unplaced_iff he).mpr (by rw [h]; exact Finset.notMem_empty _)
  rwa [Bool.not_eq_true', Bool.not_eq_false] at hun

theorem entries_leftAt_eq_nil (h : unplaced c.options placed = ∅) : (c.leftAt placed used).entries = [] := by
  rw [entries_leftAt, List.map_eq_nil_iff, List.filter_eq_nil_iff]
  intro e he
  rw [contains_placed h e.1 (List.mem_map_of_mem he)]
  exact Bool.false_ne_true

/-- The first card with the fewest sets left is the first one with the fewest sets among the candidates of the state. -/
theorem tightest?_leftAt (h : IsFirstFewest c.options placed used c.options.length card)
    (he : c.entries[card]? = some e) :
    (c.leftAt placed used).tightest? = some (e.1, c.unused used e.2) := by
  obtain ⟨hlt, hentry⟩ := List.getElem?_eq_some_iff.mp he
  have hsplit : c.entries = c.entries.take card ++ e :: c.entries.drop (card + 1) := by
    rw [← hentry, ← List.drop_eq_getElem_cons hlt, List.take_append_drop]
  rw [tightest?, entries_leftAt, hsplit, List.filter_append, List.filter_cons, if_pos ((mem_unplaced_iff he).mp h.mem),
    List.map_append, List.map_cons]
  refine argmin_append_cons (fun b hb => ?_) fun b hb => ?_
  · obtain ⟨e', he', rfl⟩ := List.mem_map.mp hb
    obtain ⟨htake, hun⟩ := List.mem_filter.mp he'
    obtain ⟨j, hj, rfl⟩ := List.mem_take_iff_getElem.mp htake
    have hget : c.entries[j]? = some c.entries[j] := List.getElem?_eq_getElem (by omega)
    show (c.unused used e.2).size < (c.unused used c.entries[j].2).size
    rw [← count_left he, ← count_left hget]
    exact h.count_lt j ((mem_unplaced_iff hget).mpr hun) (by omega)
  · obtain ⟨e', he', rfl⟩ := List.mem_map.mp hb
    obtain ⟨hdrop, hun⟩ := List.mem_filter.mp he'
    obtain ⟨j, hj, rfl⟩ := List.mem_drop_iff_getElem.mp hdrop
    have hget : c.entries[card + 1 + j]? = some c.entries[card + 1 + j] := List.getElem?_eq_getElem (by omega)
    show (c.unused used e.2).size ≤ (c.unused used c.entries[card + 1 + j].2).size
    rw [← count_left he, ← count_left hget]
    have hother := (mem_unplaced_iff hget).mpr hun
    exact h.count_le _ hother (mem_unplaced.mp hother).1

/-! ## One choice -/

/-- After a choice a state stands for the candidates of the other cards without the set. -/
theorem restrict_leftAt {code : SetCode} (hroom : HasRoom c.options placed used)
    (hcard : card ∈ unplaced c.options placed) (he : c.entries[card]? = some e)
    (hset : (left c.options used card).contains set = true) (hcode : c.codes.toList[set]? = some code) :
    (c.leftAt placed used).restrict (· ≠ e.1) (· ≠ code) = c.leftAt (placed.insert card) (used.insert set) := by
  have hplaced : card < placed.capacity := lt_of_lt_of_le (mem_unplaced.mp hcard).1 hroom.card_lt
  obtain ⟨hlt, hget⟩ := List.getElem?_eq_some_iff.mp hcode
  rw [leftAt, leftAt, restrict_restrict]
  refine restrict_congr (fun n hn => ?_) fun code' hcode' => ?_
  · have hidx : c.names.idxOf n = card ↔ n = e.1 := by
      rw [← idxOf_entry he, List.idxOf_inj hn]
    rw [BitSet.contains_insert hplaced, Bool.not_or, ← decide_not, decide_eq_decide.mpr (not_congr hidx)]
  · have hidx : c.codes.toList.idxOf code' = set ↔ code' = code := by
      rw [← c.codes.nodup_toList.idxOf_getElem set hlt, hget, List.idxOf_inj hcode']
    rw [BitSet.contains_insert (hroom.lt_of_contains_left hset), Bool.not_or, ← decide_not,
      decide_eq_decide.mpr (not_congr hidx)]

/-! ## The pairing of a completion -/

/-- The pairing that a completion gives to the cards that are not placed. -/
def pairingAt (c : Candidates) (placed : BitSet) (g : ℕ → ℕ) : Pairing :=
  .ofList ((c.names.filter fun n => !placed.contains (c.names.idxOf n)).map fun n => (n, c.choiceOf g n))

theorem get?_pairingAt (c : Candidates) (placed : BitSet) (g : ℕ → ℕ) (n : CardName) (code : SetCode) :
    (c.pairingAt placed g).get? n = some code ↔
      (n ∈ c.names ∧ placed.contains (c.names.idxOf n) = false) ∧ c.choiceOf g n = code := by
  rw [pairingAt, SortedMap.get?_ofList_eq_some_iff, List.mem_map]
  · constructor
    · rintro ⟨m, hm, heq⟩
      obtain ⟨rfl, rfl⟩ := Prod.mk.inj heq
      rw [List.mem_filter, Bool.not_eq_true'] at hm
      exact ⟨hm, rfl⟩
    · rintro ⟨hn, rfl⟩
      exact ⟨n, List.mem_filter.mpr ⟨hn.1, by rw [hn.2, Bool.not_false]⟩, rfl⟩
  · intro p hp q hq hpq
    obtain ⟨m, -, rfl⟩ := List.mem_map.mp hp
    obtain ⟨m', -, rfl⟩ := List.mem_map.mp hq
    obtain rfl : m = m' := hpq
    rfl

theorem pairingAt_eq_empty (h : unplaced c.options placed = ∅) (g : ℕ → ℕ) : c.pairingAt placed g = ∅ := by
  have hnames : (c.names.filter fun n => !placed.contains (c.names.idxOf n)) = [] := by
    rw [List.filter_eq_nil_iff]
    intro n hn
    rw [contains_placed h n hn]
    exact Bool.false_ne_true
  rw [pairingAt, hnames]
  rfl

/-- The pairing below a choice together with the choice is the pairing of the completion with the choice. -/
theorem insert_pairingAt {code : SetCode} (hroom : HasRoom c.options placed used)
    (hcard : card ∈ unplaced c.options placed) (he : c.entries[card]? = some e)
    (hcode : c.codes.toList[set]? = some code) (g : ℕ → ℕ) :
    (c.pairingAt (placed.insert card) g).insert e.1 code = c.pairingAt placed (Function.update g card set) := by
  have hplaced : card < placed.capacity := lt_of_lt_of_le (mem_unplaced.mp hcard).1 hroom.card_lt
  refine SortedMap.ext_get? fun n => Option.ext fun code' => ?_
  rw [SortedMap.get?_insert, get?_pairingAt]
  split
  · next hn =>
    subst hn
    have hmem : e.1 ∈ c.names := mem_names.mpr ⟨e.2, List.mem_of_getElem? he⟩
    rw [choiceOf, idxOf_entry he, Function.update_self, List.getD_eq_getElem?_getD, hcode, Option.getD_some,
      Option.some_inj]
    exact (and_iff_right ⟨hmem, (mem_unplaced.mp hcard).2⟩).symm
  · next hn =>
    have hne : c.names.idxOf n ≠ card := by
      intro hidx
      have hmem : n ∈ c.names := by
        rw [← List.idxOf_lt_length_iff, hidx, length_names]
        exact (List.getElem?_eq_some_iff.mp he).1
      exact hn ((List.idxOf_inj hmem).mp (hidx.trans (idxOf_entry he).symm))
    rw [get?_pairingAt, choiceOf, choiceOf, BitSet.contains_insert hplaced, Function.update_of_ne hne,
      decide_eq_false hne, Bool.false_or]

/-! ## The solver and the procedure -/

/-- **From every state the search finds what the procedure finds, and counts what it counts.** -/
theorem search_leftAt {remaining : ℕ} (hroom : HasRoom c.options placed used)
    (hremaining : remaining = (unplaced c.options placed).card) :
    (c.leftAt placed used).search =
      (countedCompletion c.options remaining placed used).map (c.pairingAt placed) := by
  induction remaining generalizing placed used with
  | zero =>
    have hempty : unplaced c.options placed = ∅ := Finset.card_eq_zero.mp hremaining.symm
    rw [search_of_none (by rw [tightest?, entries_leftAt_eq_nil hempty, List.argmin_nil]), countedCompletion,
      Counted.map, success, success, Option.map_some, pairingAt_eq_empty hempty]
  | succ remaining ih =>
    obtain ⟨card, hnext, hcard⟩ := exists_mostConstrained used hremaining
    have hcount := card_unplaced_insert hroom hcard
    have hlt : card < c.entries.length := by
      have := (mem_unplaced.mp hcard).1
      rwa [length_options] at this
    have he : c.entries[card]? = some c.entries[card] := List.getElem?_eq_getElem hlt
    obtain ⟨hfirst, -⟩ := mostConstrained_eq_some_iff.mp hnext
    rw [search_of_some (tightest?_leftAt hfirst he), countedCompletion_succ hnext, map_enter, map_firstSuccess,
      ← map_toList_left he, firstSuccess_map]
    refine congrArg Counted.enter (firstSuccess_congr fun set hset => ?_)
    rw [BitSet.mem_toList] at hset
    obtain ⟨⟨code, hcode, -⟩, -⟩ := (contains_left_iff he used set).mp hset
    have hgetD : c.codes.toList.getD set default = code := by
      rw [List.getD_eq_getElem?_getD, hcode, Option.getD_some]
    rw [hgetD, restrict_leftAt hroom hcard he hset hcode,
      ih ((hroom.insert_card card).insert_set set) (by omega)]
    simp only [Counted.map, Option.map_map, Function.comp_def, insert_pairingAt hroom hcard he hcode]

/-- The codes of the candidates are the distinct ones among all their sets. -/
theorem card_toFinset_eq (c : Candidates) : (c.entries.flatMap (·.2.toList)).toFinset.card = c.codes.size := by
  have hcodes : (c.entries.flatMap (·.2.toList)).toFinset = c.codes.toList.toFinset := by
    ext code
    rw [List.mem_toFinset, List.mem_toFinset, SortedSet.mem_toList, codes, SortedSet.mem_ofList]
  rw [hcodes, List.toFinset_card_of_nodup c.codes.nodup_toList, SortedSet.size]

/-- At the start the pairing of a completion is the one that the solver makes of it. -/
theorem pairingAt_start {g : ℕ → ℕ} (hg : Completes c.options c.start.placed c.start.used g) :
    c.pairingAt c.start.placed g = c.pairingOf ((List.range c.size).map g) := by
  refine SortedMap.ext_get? fun n => Option.ext fun code => ?_
  rw [get?_pairingAt, get?_pairingOf hg, start, BitSet.contains_withWidth]
  exact and_congr_left' (and_iff_left rfl)

/-- **The solver without memoisation is the procedure**: it finds the same pairing or none, enters as many states
with a card left to place, and takes back as many choices. -/
theorem solve_eq_procedure (c : Candidates) :
    (c.solve false).pairing = c.procedure.found ∧
      (c.solve false).stats.nodesVisited = c.procedure.nodes ∧
      (c.solve false).stats.backtracks = c.procedure.backtracks := by
  rw [procedure, card_toFinset_eq]
  rcases Nat.lt_or_ge c.codes.size c.size with hlt | hge
  · rw [solve, if_pos hlt, if_pos hlt]
    exact ⟨rfl, rfl, rfl⟩
  · have hsearch : c.search = (countedCompletion c.options c.size c.start.placed c.start.used).map
        (c.pairingAt c.start.placed) := by
      rw [← search_leftAt c.hasRoom_start c.card_unplaced_start.symm, leftAt_start]
    have hfound : (c.solve false).pairing = c.search.found := by
      rw [solve_pairing_eq hge, hsearch, Counted.map, found_countedCompletion]
      exact Option.map_congr fun g hg =>
        (pairingAt_start (completes_firstCompletion c.hasRoom_start c.card_unplaced_start.symm hg)).symm
    have hstats : (c.solve false).stats = SearchStats.plus {} c.search := by
      rw [stats_solve hge, stats_place c.sound_start c.card_unplaced_start.symm, hsearch]
      rfl
    rw [if_neg (Nat.not_lt.mpr hge), hstats]
    exact ⟨hfound, Nat.zero_add _, Nat.zero_add _⟩

end Candidates

end DeckLegality
