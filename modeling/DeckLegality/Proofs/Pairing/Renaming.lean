import DeckLegality.Proofs.Pairing.Contents
import DeckLegality.Proofs.Pairing.Counters

/-!
# The solver does not look at names

Cards may be called something else, as long as no two of them get the same name, and set codes may be replaced by others
that stand in the same order.  The solver then does what it did before: it knows a card by its place among the cards, and a
set by its place in the ascending list of all sets, and neither changes.

So there is no need to compare two searches step by step.  `Candidates.options_renamed` says that the renamed candidates
give the very same numbers, hence there is one search only; the names come back in when its outcome is made a pairing
(`Candidates.isRenaming_pairingOf`).
-/

namespace DeckLegality

/-- In a list without repetitions an element is found where it was before everything was replaced. -/
theorem idxOf_map_of_nodup {α β : Type} [DecidableEq α] [DecidableEq β] {f : α → β} {l : List α} {a : α}
    (hnodup : (l.map f).Nodup) (ha : a ∈ l) : (l.map f).idxOf (f a) = l.idxOf a := by
  have hlt : l.idxOf a < l.length := List.idxOf_lt_length_iff.mpr ha
  have hidx := hnodup.idxOf_getElem (l.idxOf a) (by rwa [List.length_map])
  rwa [List.getElem_map, List.getElem_idxOf hlt] at hidx

/-! ## Sets of other codes -/

/-- The codes that take the place of those of the set. -/
def SetCodes.renamed (f : SetCode → SetCode) (s : SetCodes) : SetCodes := .ofList (s.toList.map f)

/-- No two codes of the set change their order. -/
def SetCodes.KeepsOrder (s : SetCodes) (f : SetCode → SetCode) : Prop := ∀ a ∈ s, ∀ b ∈ s, a < b → f a < f b

section Codes

variable {f : SetCode → SetCode} {s t : SetCodes} {code : SetCode}

theorem SetCodes.mem_renamed : code ∈ s.renamed f ↔ ∃ code' ∈ s, f code' = code := by
  rw [renamed, SortedSet.mem_ofList, List.mem_map]
  rfl

theorem SetCodes.KeepsOrder.mono (h : t.KeepsOrder f) (hst : ∀ code ∈ s, code ∈ t) : s.KeepsOrder f :=
  fun a ha b hb => h a (hst a ha) b (hst b hb)

theorem SetCodes.KeepsOrder.ascending (h : s.KeepsOrder f) : (s.toList.map f).Pairwise (· < ·) := by
  rw [List.pairwise_map]
  exact s.ascending.imp_of_mem fun {a b} ha hb hab => h a ha b hb hab

/-- The new codes in ascending order are the old ones in ascending order, each replaced. -/
theorem SetCodes.KeepsOrder.toList_renamed (h : s.KeepsOrder f) : (s.renamed f).toList = s.toList.map f :=
  congrArg SortedSet.toList (SortedSet.ofList_eq_of_perm (s := ⟨s.toList.map f, h.ascending⟩) (List.Perm.refl _))

theorem SetCodes.KeepsOrder.nodup (h : s.KeepsOrder f) : (s.toList.map f).Nodup := by
  rw [← h.toList_renamed]
  exact SortedSet.nodup_toList _

end Codes

/-! ## Candidates with other names -/

namespace Candidates

/-- The candidates with `g` applied to every card and `f` to every set code. -/
def renamed (g : CardName → CardName) (f : SetCode → SetCode) (c : Candidates) : Candidates :=
  .ofList (c.entries.map fun e => (g e.1, e.2.renamed f))

variable {c : Candidates} {g : CardName → CardName} {f : SetCode → SetCode}

theorem map_fst_renamed (c : Candidates) (g : CardName → CardName) (f : SetCode → SetCode) :
    (c.entries.map fun e => (g e.1, SetCodes.renamed f e.2)).map (·.1) = c.names.map g := by
  rw [names, List.map_map, List.map_map]
  rfl

theorem entries_renamed (hg : Set.InjOn g {n | n ∈ c.names}) (f : SetCode → SetCode) :
    (c.renamed g f).entries = c.entries.map fun e => (g e.1, e.2.renamed f) := by
  refine entries_ofList ?_
  rw [map_fst_renamed]
  exact c.nodup_names.map_on fun m hm n hn heq => hg hm hn heq

theorem names_renamed (hg : Set.InjOn g {n | n ∈ c.names}) (f : SetCode → SetCode) :
    (c.renamed g f).names = c.names.map g := by
  rw [names, entries_renamed hg, map_fst_renamed]

theorem size_renamed (hg : Set.InjOn g {n | n ∈ c.names}) (f : SetCode → SetCode) :
    (c.renamed g f).size = c.size := by
  rw [← length_names, names_renamed hg, List.length_map, length_names]

theorem codes_renamed (hg : Set.InjOn g {n | n ∈ c.names}) (f : SetCode → SetCode) :
    (c.renamed g f).codes = c.codes.renamed f := by
  refine SortedSet.ext_mem fun code => ?_
  rw [mem_codes, entries_renamed hg, SetCodes.mem_renamed]
  constructor
  · rintro ⟨e', he', hcode⟩
    obtain ⟨e, he, rfl⟩ := List.mem_map.mp he'
    obtain ⟨code', hcode', rfl⟩ := SetCodes.mem_renamed.mp hcode
    exact ⟨code', mem_codes.mpr ⟨e, he, hcode'⟩, rfl⟩
  · rintro ⟨code', hcode', rfl⟩
    obtain ⟨e, he, hmem⟩ := mem_codes.mp hcode'
    exact ⟨_, List.mem_map_of_mem he, SetCodes.mem_renamed.mpr ⟨code', hmem, rfl⟩⟩

/-! ## The same numbers -/

/-- The sets of a card have the numbers that they had before. -/
theorem mask_renamed {codes s : SetCodes} (hf : codes.KeepsOrder f) (hs : ∀ code ∈ s, code ∈ codes) :
    mask (codes.toList.map f) (s.renamed f) = mask codes.toList s := by
  rw [mask, mask, (hf.mono hs).toList_renamed, List.foldl_map, List.length_map]
  refine List.foldl_ext _ _ _ fun mask code hcode => ?_
  rw [idxOf_map_of_nodup hf.nodup (hs code hcode)]

theorem options_renamed (hg : Set.InjOn g {n | n ∈ c.names}) (hf : c.codes.KeepsOrder f) :
    (c.renamed g f).options = c.options := by
  have hcodes : ∀ e ∈ c.entries, ∀ code ∈ e.2, code ∈ c.codes := fun e he code hcode => mem_codes.mpr ⟨e, he, hcode⟩
  simp only [options, entries_renamed hg, codes_renamed hg, hf.toList_renamed, List.map_map]
  exact List.map_congr_left fun e he => mask_renamed hf (hcodes e he)

theorem size_codes_renamed (hg : Set.InjOn g {n | n ∈ c.names}) (hf : c.codes.KeepsOrder f) :
    (c.renamed g f).codes.size = c.codes.size := by
  rw [codes_renamed hg, SortedSet.size, hf.toList_renamed, List.length_map, SortedSet.size]

theorem start_renamed (hg : Set.InjOn g {n | n ∈ c.names}) (hf : c.codes.KeepsOrder f) :
    (c.renamed g f).start = c.start := by
  rw [start, start, size_renamed hg, size_codes_renamed hg hf]

/-! ## The same pairing under other names -/

theorem pairsOf_renamed (hg : Set.InjOn g {n | n ∈ c.names}) (hf : c.codes.KeepsOrder f) (chosen : List ℕ) :
    (c.renamed g f).pairsOf chosen = (c.pairsOf chosen).map fun p => (g p.1, f p.2) := by
  rw [pairsOf, pairsOf, names_renamed hg, codes_renamed hg, hf.toList_renamed, List.map_filterMap, List.zip_map_left,
    List.filterMap_map]
  refine List.filterMap_congr fun p _ => ?_
  rw [Function.comp_apply, Prod.map_fst, Prod.map_snd, List.getElem?_map, Option.map_map, Option.map_map]
  rfl

end Candidates

/-- The pairing `q` gives the renamed cards the renamed sets that `p` gives them, and has no other card. -/
def Pairing.IsRenaming (g : CardName → CardName) (f : SetCode → SetCode) (p q : Pairing) : Prop :=
  ∀ m code, q.get? m = some code ↔ ∃ n code', p.get? n = some code' ∧ g n = m ∧ f code' = code

namespace Candidates

variable {c : Candidates} {g : CardName → CardName} {f : SetCode → SetCode}

theorem isRenaming_pairingOf (hg : Set.InjOn g {n | n ∈ c.names}) (hf : c.codes.KeepsOrder f) (chosen : List ℕ) :
    (c.pairingOf chosen).IsRenaming g f ((c.renamed g f).pairingOf chosen) := by
  intro m code
  simp only [get?_pairingOf_eq_some_iff]
  rw [pairsOf_renamed hg hf, List.mem_map]
  simp only [Prod.exists, Prod.mk.injEq]

/-- **The solver does not look at names.**  Let no two cards get the same name, and let the set codes that take the place of
others stand in the same order as these.  Then there is an answer for the renamed candidates if there was one before, every
card under its new name has the new code of the set that it had before, and the counters are the same. -/
theorem solve_equivariant (hg : Set.InjOn g {n | n ∈ c.names}) (hf : c.codes.KeepsOrder f) (memoize : Bool) :
    (((c.renamed g f).solve memoize).pairing = none ↔ (c.solve memoize).pairing = none) ∧
    (∀ p, (c.solve memoize).pairing = some p →
      ∃ q, ((c.renamed g f).solve memoize).pairing = some q ∧ p.IsRenaming g f q) ∧
    ((c.renamed g f).solve memoize).stats.nodesVisited = (c.solve memoize).stats.nodesVisited ∧
    ((c.renamed g f).solve memoize).stats.backtracks = (c.solve memoize).stats.backtracks ∧
    ((c.renamed g f).solve memoize).stats.memoHits = (c.solve memoize).stats.memoHits := by
  have hsize := size_renamed hg f
  have hcodes := size_codes_renamed hg hf
  rcases Nat.lt_or_ge c.codes.size c.size with hlt | hge
  · have hlt' : (c.renamed g f).codes.size < (c.renamed g f).size := by rwa [hsize, hcodes]
    rw [pairing_solve_of_lt hlt, pairing_solve_of_lt hlt', stats_solve_of_lt hlt, stats_solve_of_lt hlt']
    exact ⟨Iff.rfl, fun p hp => absurd hp.symm (Option.some_ne_none p), rfl, rfl, rfl⟩
  · have hge' : (c.renamed g f).size ≤ (c.renamed g f).codes.size := by rwa [hsize, hcodes]
    -- both searches are the same search
    rw [pairing_solve hge, pairing_solve hge', stats_solve hge, stats_solve hge', options_renamed hg hf,
      start_renamed hg hf, hsize]
    refine ⟨?_, ?_, rfl, rfl, rfl⟩
    · split <;> simp
    · intro p hp
      split at hp
      · next hfound =>
        obtain rfl := Option.some.inj hp
        exact ⟨_, if_pos hfound, isRenaming_pairingOf hg hf _⟩
      · exact absurd hp.symm (Option.some_ne_none p)

/-- Two cards change their names. -/
def swapped (n : CardName) : CardName := if n.text = "A" then ⟨"C"⟩ else if n.text = "C" then ⟨"A"⟩ else n

/-- Other codes in the same order. -/
def spelledOut (code : SetCode) : SetCode :=
  if code.text = "1" then ⟨"LEA"⟩ else if code.text = "2" then ⟨"M10"⟩ else ⟨"ZEN"⟩

theorem solve_equivariant_contested :
    Set.InjOn swapped {n | n ∈ contested.names} ∧ contested.codes.KeepsOrder spelledOut ∧
      (contested.solve true).pairing = some (.ofList [(⟨"A"⟩, ⟨"2"⟩), (⟨"B"⟩, ⟨"1"⟩), (⟨"C"⟩, ⟨"3"⟩)]) ∧
      (∃ q, ((contested.renamed swapped spelledOut).solve true).pairing = some q ∧ q.get? ⟨"C"⟩ = some ⟨"M10"⟩) ∧
      ((contested.renamed swapped spelledOut).solve false).stats.backtracks = 2 := by
  have hg : Set.InjOn swapped {n | n ∈ contested.names} := by
    have hnames : ∀ m ∈ contested.names, ∀ n ∈ contested.names, swapped m = swapped n → m = n := by decide +kernel
    exact fun m hm n hn => hnames m hm n hn
  have hf : contested.codes.KeepsOrder spelledOut := by
    have hcodes : ∀ a ∈ contested.codes.toList, ∀ b ∈ contested.codes.toList, a < b → spelledOut a < spelledOut b := by
      decide +kernel
    exact hcodes
  have hsolve : (contested.solve true).pairing =
      some (.ofList [(⟨"A"⟩, ⟨"2"⟩), (⟨"B"⟩, ⟨"1"⟩), (⟨"C"⟩, ⟨"3"⟩)]) := by
    rw [solve_pairing_eq (by decide +kernel)]
    decide +kernel
  obtain ⟨q, hq, hrenaming⟩ := (solve_equivariant hg hf true).2.1 _ hsolve
  have hcard : q.get? ⟨"C"⟩ = some ⟨"M10"⟩ :=
    (hrenaming ⟨"C"⟩ ⟨"M10"⟩).mpr ⟨⟨"A"⟩, ⟨"2"⟩, by decide +kernel, by decide +kernel, by decide +kernel⟩
  have hback : (contested.solve false).stats.backtracks = 2 := by decide +kernel
  exact ⟨hg, hf, hsolve, ⟨q, hq, hcard⟩, (solve_equivariant hg hf false).2.2.2.1.trans hback⟩

end Candidates

end DeckLegality
