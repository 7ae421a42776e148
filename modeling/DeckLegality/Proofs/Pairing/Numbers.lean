import DeckLegality.Proofs.Pairing.Choice
import DeckLegality.Proofs.Search.Completion
import Mathlib.Data.List.GetD

/-!
# Cards and sets by their numbers

The search knows a card by its place in the order in which the cards came in, and a set by its place in the
ascending list of all sets.  This module carries choices and completions over from one side to the other.

`Candidates.mask` turns the sets of a card into bits; `contains_left_start` says that at the start of a search
exactly the sets of a card are left for it.  From there on the two sides differ in names only:
`isChoice_choiceOf` makes a choice of a completion and `completes_numbersOf` a completion of a choice, so that the
first state of the search is dead exactly when there is no choice (`dead_start_iff`).  `get?_pairingOf` reads the
pairing that is made of a completion as the choice that is made of it.
-/

namespace DeckLegality

namespace Candidates

open Search

variable {c : Candidates} {i : ℕ}

/-! ## Entries -/

theorem length_options (c : Candidates) : c.options.length = c.size := by
  rw [options, List.length_map, size]

/-- A number below the number of cards belongs to an entry, and the card of the entry has this number. -/
theorem exists_entry (hi : i < c.size) : ∃ e, c.entries[i]? = some e ∧ c.names.idxOf e.1 = i := by
  have hlen : i < c.names.length := by rwa [length_names]
  refine ⟨c.entries[i], List.getElem?_eq_getElem hi, ?_⟩
  have hname : c.names[i] = c.entries[i].1 := List.getElem_map _
  rw [← hname]
  exact c.nodup_names.idxOf_getElem i hlen

/-- A card is the card of the entry at its number. -/
theorem exists_entry_of_mem {n : CardName} (hn : n ∈ c.names) :
    c.names.idxOf n < c.size ∧ ∃ e, c.entries[c.names.idxOf n]? = some e ∧ e.1 = n := by
  have hlt : c.names.idxOf n < c.names.length := List.idxOf_lt_length_iff.mpr hn
  have hsize : c.names.idxOf n < c.entries.length := by rwa [names, List.length_map] at hlt
  refine ⟨hsize, c.entries[c.names.idxOf n], List.getElem?_eq_getElem hsize, ?_⟩
  have hname : c.names[c.names.idxOf n] = c.entries[c.names.idxOf n].1 := List.getElem_map _
  rw [← hname, List.getElem_idxOf hlt]

/-! ## Masks -/

theorem capacity_foldl_insert (codes l : List SetCode) (s : BitSet) :
    (l.foldl (fun s code => s.insert (codes.idxOf code)) s).capacity = s.capacity := by
  induction l generalizing s with
  | nil => rfl
  | cons code l ih => rw [List.foldl_cons, ih, BitSet.capacity_insert]

theorem capacity_mask (codes : List SetCode) (candidates : SetCodes) :
    (mask codes candidates).capacity = (BitSet.withWidth codes.length).capacity := capacity_foldl_insert ..

/-- Putting the numbers of some sets in makes them members and no others. -/
theorem contains_foldl_insert {codes l : List SetCode} {s : BitSet} (hcap : codes.length ≤ s.capacity)
    (hl : ∀ code ∈ l, code ∈ codes) :
    (l.foldl (fun s code => s.insert (codes.idxOf code)) s).contains i = true ↔
      s.contains i = true ∨ ∃ code ∈ l, codes.idxOf code = i := by
  induction l generalizing s with
  | nil => simp
  | cons code l ih =>
    obtain ⟨hcode, hl⟩ := List.forall_mem_cons.mp hl
    have hlt : codes.idxOf code < s.capacity :=
      lt_of_lt_of_le (List.idxOf_lt_length_iff.mpr hcode) hcap
    rw [List.foldl_cons, ih (by rwa [BitSet.capacity_insert]) hl, BitSet.contains_insert hlt,
      Bool.or_eq_true, decide_eq_true_eq]
    simp only [List.mem_cons, exists_eq_or_imp]
    constructor
    · rintro ((heq | hs) | hrest)
      · exact Or.inr (Or.inl heq.symm)
      · exact Or.inl hs
      · exact Or.inr (Or.inr hrest)
    · rintro (hs | heq | hrest)
      · exact Or.inl (Or.inr hs)
      · exact Or.inl (Or.inl heq.symm)
      · exact Or.inr hrest

/-- A mask has the number of a set as a member exactly when the set is one of the candidates. -/
theorem contains_mask {codes : List SetCode} {candidates : SetCodes} (hnodup : codes.Nodup)
    (hsub : ∀ code ∈ candidates, code ∈ codes) :
    (mask codes candidates).contains i = true ↔ ∃ code, codes[i]? = some code ∧ code ∈ candidates := by
  rw [mask, contains_foldl_insert (BitSet.le_capacity_withWidth codes.length) hsub, BitSet.contains_withWidth]
  constructor
  · rintro (hfalse | ⟨code, hcode, rfl⟩)
    · exact absurd hfalse Bool.false_ne_true
    · have hlt := List.idxOf_lt_length_iff.mpr (hsub code hcode)
      exact ⟨code, by rw [List.getElem?_eq_getElem hlt, List.getElem_idxOf hlt], hcode⟩
  · rintro ⟨code, hget, hcode⟩
    obtain ⟨hlt, rfl⟩ := List.getElem?_eq_some_iff.mp hget
    exact Or.inr ⟨codes[i], hcode, hnodup.idxOf_getElem i hlt⟩

/-! ## The first state of a search -/

/-- The sets that are left for a card are those of its candidates that are not used. -/
theorem contains_left_iff {e : CardName × SetCodes} (he : c.entries[i]? = some e) (used : BitSet) (set : ℕ) :
    (left c.options used i).contains set = true ↔
      (∃ code, c.codes.toList[set]? = some code ∧ code ∈ e.2) ∧ used.contains set = false := by
  have hmask : c.options.getD i default = mask c.codes.toList e.2 := by
    rw [List.getD_eq_getElem?_getD, options, List.getElem?_map, he]
    rfl
  have hsub : ∀ code ∈ e.2, code ∈ c.codes.toList := fun code hcode =>
    mem_codes.mpr ⟨e, List.mem_of_getElem? he, hcode⟩
  rw [contains_left, hmask, Bool.and_eq_true, contains_mask c.codes.nodup_toList hsub, Bool.not_eq_true']

/-- At the start the sets that are left for a card are its candidates. -/
theorem contains_left_start {e : CardName × SetCodes} (he : c.entries[i]? = some e) (set : ℕ) :
    (left c.options c.start.used i).contains set = true ↔
      ∃ code, c.codes.toList[set]? = some code ∧ code ∈ e.2 := by
  rw [contains_left_iff he, start, BitSet.contains_withWidth]
  exact and_iff_left rfl

theorem mem_unplaced_start : i ∈ unplaced c.options c.start.placed ↔ i < c.size := by
  rw [mem_unplaced, length_options, start, BitSet.contains_withWidth]
  exact and_iff_left rfl

theorem card_unplaced_start (c : Candidates) : (unplaced c.options c.start.placed).card = c.size := by
  have hrange : unplaced c.options c.start.placed = Finset.range c.size := by
    ext card
    rw [mem_unplaced_start, Finset.mem_range]
  rw [hrange, Finset.card_range]

theorem hasRoom_start (c : Candidates) : HasRoom c.options c.start.placed c.start.used := by
  refine ⟨?_, fun s hs set hset => ?_⟩
  · rw [length_options]
    exact BitSet.le_capacity_withWidth c.size
  · obtain ⟨e, -, rfl⟩ := List.mem_map.mp hs
    have hlt := BitSet.lt_capacity_of_contains hset
    rwa [capacity_mask] at hlt

/-! ## From completions to choices and back -/

/-- The set of each card when `g` gives its number by the number of the card. -/
def choiceOf (c : Candidates) (g : ℕ → ℕ) (n : CardName) : SetCode :=
  c.codes.toList.getD (g (c.names.idxOf n)) default

/-- The number of the set that `f` gives to the card with a number. -/
def numbersOf (c : Candidates) (f : CardName → SetCode) (card : ℕ) : ℕ :=
  c.codes.toList.idxOf (f (c.names.getD card default))

/-- A completion gives a card the number of one of its candidates. -/
theorem getElem?_of_completes {g : ℕ → ℕ} (hg : Completes c.options c.start.placed c.start.used g)
    {n : CardName} (hn : n ∈ c.names) :
    c.codes.toList[g (c.names.idxOf n)]? = some (c.choiceOf g n) ∧
      ∀ codes, (n, codes) ∈ c.entries → c.choiceOf g n ∈ codes := by
  obtain ⟨hlt, e, he, rfl⟩ := exists_entry_of_mem hn
  obtain ⟨code, hcode, hmem⟩ := (contains_left_start he _).mp (hg.contains _ (mem_unplaced_start.mpr hlt))
  have hchoice : c.choiceOf g e.1 = code := by
    rw [choiceOf, List.getD_eq_getElem?_getD, hcode, Option.getD_some]
  refine ⟨by rw [hchoice, hcode], fun codes hcodes => ?_⟩
  -- the card has one entry only
  have hsame : (e.1, codes) = e :=
    List.inj_on_of_nodup_map c.nodup hcodes (List.mem_of_getElem? he) rfl
  rw [hchoice, show codes = e.2 from congrArg Prod.snd hsame]
  exact hmem

theorem isChoice_choiceOf {g : ℕ → ℕ} (hg : Completes c.options c.start.placed c.start.used g) :
    c.IsChoice (c.choiceOf g) := by
  refine ⟨fun e he => ?_, fun m hm n hn heq => ?_⟩
  · exact (getElem?_of_completes hg (List.mem_map_of_mem he)).2 e.2 he
  · have hm' := (getElem?_of_completes hg hm).1
    have hn' := (getElem?_of_completes hg hn).1
    rw [← heq] at hn'
    obtain ⟨hlt, hmcode⟩ := List.getElem?_eq_some_iff.mp hm'
    obtain ⟨hlt', hncode⟩ := List.getElem?_eq_some_iff.mp hn'
    have hset : g (c.names.idxOf m) = g (c.names.idxOf n) :=
      (c.codes.nodup_toList.getElem_inj_iff).mp (hmcode.trans hncode.symm)
    have hidx : c.names.idxOf m = c.names.idxOf n :=
      hg.injOn (mem_unplaced_start.mpr (exists_entry_of_mem hm).1)
        (mem_unplaced_start.mpr (exists_entry_of_mem hn).1) hset
    exact (List.idxOf_inj hm).mp hidx

theorem completes_numbersOf {f : CardName → SetCode} (hf : c.IsChoice f) :
    Completes c.options c.start.placed c.start.used (c.numbersOf f) := by
  have hname : ∀ i < c.size, ∃ e ∈ c.entries, c.entries[i]? = some e ∧ c.names.idxOf e.1 = i ∧
      c.numbersOf f i = c.codes.toList.idxOf (f e.1) ∧ f e.1 ∈ c.codes.toList := by
    intro i hi
    obtain ⟨e, he, hidx⟩ := exists_entry hi
    have hmem := List.mem_of_getElem? he
    have hget : c.names.getD i default = e.1 := by
      rw [List.getD_eq_getElem?_getD, names, List.getElem?_map, he]
      rfl
    exact ⟨e, hmem, he, hidx, by rw [numbersOf, hget], mem_codes.mpr ⟨e, hmem, hf.mem e hmem⟩⟩
  refine ⟨fun i hi => ?_, fun i hi j hj heq => ?_⟩
  · obtain ⟨e, hmem, he, -, hnum, hcode⟩ := hname i (mem_unplaced_start.mp hi)
    have hlt := List.idxOf_lt_length_iff.mpr hcode
    refine (contains_left_start he _).mpr ⟨f e.1, ?_, hf.mem e hmem⟩
    rw [hnum, List.getElem?_eq_getElem hlt, List.getElem_idxOf hlt]
  · obtain ⟨e, hmem, -, hidx, hnum, hcode⟩ := hname i (mem_unplaced_start.mp hi)
    obtain ⟨e', hmem', -, hidx', hnum', -⟩ := hname j (mem_unplaced_start.mp hj)
    rw [hnum, hnum', List.idxOf_inj hcode] at heq
    have hcard : e.1 = e'.1 := hf.injOn (List.mem_map_of_mem hmem) (List.mem_map_of_mem hmem') heq
    rw [← hidx, ← hidx', hcard]

/-- **The first state of a search is dead exactly when the candidates have no choice.** -/
theorem dead_start_iff (c : Candidates) :
    Dead c.options c.start.placed c.start.used ↔ ¬ ∃ f, c.IsChoice f := by
  constructor
  · rintro hdead ⟨f, hf⟩
    exact hdead _ (completes_numbersOf hf)
  · intro hnone g hg
    exact hnone ⟨_, isChoice_choiceOf hg⟩

/-! ## The pairing of a completion -/

/-- The cards go with their sets by number. -/
theorem mem_zip_range {g : ℕ → ℕ} {n : CardName} {set : ℕ} :
    (n, set) ∈ c.names.zip ((List.range c.size).map g) ↔ n ∈ c.names ∧ g (c.names.idxOf n) = set := by
  rw [List.mem_iff_getElem?]
  simp only [List.getElem?_zip_eq_some]
  constructor
  · rintro ⟨k, hn, hset⟩
    obtain ⟨hk, rfl⟩ := List.getElem?_eq_some_iff.mp hn
    obtain ⟨hk', rfl⟩ := List.getElem?_eq_some_iff.mp hset
    refine ⟨List.getElem_mem hk, ?_⟩
    rw [c.nodup_names.idxOf_getElem k hk, List.getElem_map, List.getElem_range]
  · rintro ⟨hn, rfl⟩
    have hlt : c.names.idxOf n < c.names.length := List.idxOf_lt_length_iff.mpr hn
    refine ⟨c.names.idxOf n, by rw [List.getElem?_eq_getElem hlt, List.getElem_idxOf hlt], ?_⟩
    rw [List.getElem?_map, List.getElem?_range (by rwa [length_names] at hlt)]
    rfl

/-- The cards with the set codes that the given numbers stand for. -/
def pairsOf (c : Candidates) (chosen : List ℕ) : List (CardName × SetCode) :=
  (c.names.zip chosen).filterMap fun p => c.codes.toList[p.2]?.map (p.1, ·)

/-- No card is among the pairs twice. -/
theorem eq_of_mem_pairsOf {chosen : List ℕ} {p q : CardName × SetCode} (hp : p ∈ c.pairsOf chosen)
    (hq : q ∈ c.pairsOf chosen) (heq : p.1 = q.1) : p = q := by
  have hat : ∀ p ∈ c.pairsOf chosen, ∃ i set : ℕ, c.names[i]? = some p.1 ∧ chosen[i]? = some set ∧
      c.codes.toList[set]? = some p.2 := by
    intro p hp
    obtain ⟨⟨n, set⟩, hzip, hmap⟩ := List.mem_filterMap.mp hp
    obtain ⟨i, hi⟩ := List.mem_iff_getElem?.mp hzip
    obtain ⟨hn, hset⟩ := List.getElem?_zip_eq_some.mp hi
    obtain ⟨code, hcode, rfl⟩ := Option.map_eq_some_iff.mp hmap
    exact ⟨i, set, hn, hset, hcode⟩
  obtain ⟨i, set, hi, hset, hcode⟩ := hat p hp
  obtain ⟨j, set', hj, hset', hcode'⟩ := hat q hq
  -- a card stands at one place only
  have hlt : i < c.names.length := (List.getElem?_eq_some_iff.mp hi).1
  obtain rfl : i = j := (List.getElem?_inj hlt c.nodup_names).mp (by rw [hi, hj, heq])
  obtain rfl : set = set' := Option.some.inj (hset.symm.trans hset')
  exact Prod.ext heq (Option.some.inj (hcode.symm.trans hcode'))

/-- The pairing that is made of numbers has exactly the pairs. -/
theorem get?_pairingOf_eq_some_iff {chosen : List ℕ} {n : CardName} {code : SetCode} :
    (c.pairingOf chosen).get? n = some code ↔ (n, code) ∈ c.pairsOf chosen :=
  SortedMap.get?_ofList_eq_some_iff fun _ hp _ hq => eq_of_mem_pairsOf hp hq

/-- The pairing of a completion has exactly the cards, each with the set that the choice gives it. -/
theorem get?_pairingOf {g : ℕ → ℕ} (hg : Completes c.options c.start.placed c.start.used g)
    (n : CardName) (code : SetCode) :
    (c.pairingOf ((List.range c.size).map g)).get? n = some code ↔ n ∈ c.names ∧ c.choiceOf g n = code := by
  rw [get?_pairingOf_eq_some_iff, pairsOf, List.mem_filterMap]
  constructor
  · rintro ⟨⟨n', set⟩, hzip, hmap⟩
    obtain ⟨hn, rfl⟩ := mem_zip_range.mp hzip
    obtain ⟨code', hcode, heq⟩ := Option.map_eq_some_iff.mp hmap
    obtain ⟨rfl, rfl⟩ := Prod.mk.inj heq
    refine ⟨hn, Option.some.inj ?_⟩
    rw [← hcode, (getElem?_of_completes hg hn).1]
  · rintro ⟨hn, rfl⟩
    refine ⟨(n, g (c.names.idxOf n)), mem_zip_range.mpr ⟨hn, rfl⟩, ?_⟩
    rw [(getElem?_of_completes hg hn).1, Option.map_some]

end Candidates

end DeckLegality
