import DeckLegality.Pairing.Candidates
import Mathlib.Data.List.Nodup
import Mathlib.Data.List.Pairwise
import Mathlib.Data.List.Perm.Subperm
import Mathlib.Data.Set.Function
import Mathlib.Order.Basic

/-!
# Pairings and choices

A *choice* gives each card one of its candidates and never one set to two cards.  It is a function, so it says
nothing about how a pairing is stored or checked.  `Pairing.satisfies` walks over the cards and collects the sets
it meets; the theorems here say that it finds out what it should.

* `Pairing.satisfies_of_isChoice`: a pairing that holds a choice for exactly the cards of some candidates
  satisfies them.
* `Pairing.isChoice_of_satisfies`: a pairing that satisfies some candidates holds a choice.
* `Pairing.satisfies_iff`: what a pairing is like that satisfies some candidates, said of its look-ups.
* `Candidates.size_le_of_isChoice`: a choice needs at least as many sets as there are cards.
-/

namespace DeckLegality

namespace Candidates

/-- `f` gives every card one of its candidates, and no two cards the same one. -/
structure IsChoice (c : Candidates) (f : CardName → SetCode) : Prop where
  mem : ∀ e ∈ c.entries, f e.1 ∈ e.2
  injOn : Set.InjOn f {n | n ∈ c.names}

theorem mem_codes {c : Candidates} {code : SetCode} :
    code ∈ c.codes ↔ ∃ e ∈ c.entries, code ∈ e.2 := by
  rw [codes, SortedSet.mem_ofList, List.mem_flatMap]
  rfl

theorem mem_names {c : Candidates} {n : CardName} : n ∈ c.names ↔ ∃ codes, (n, codes) ∈ c.entries := by
  rw [names, List.mem_map]
  constructor
  · rintro ⟨e, he, rfl⟩
    exact ⟨e.2, he⟩
  · rintro ⟨codes, he⟩
    exact ⟨(n, codes), he, rfl⟩

theorem get?_eq_some_iff {c : Candidates} {n : CardName} {codes : SetCodes} :
    c.get? n = some codes ↔ (n, codes) ∈ c.entries := by
  rw [get?_eq_lookup]
  refine ⟨FirstSeen.mem_of_lookup_eq_some, fun he => ?_⟩
  cases hget : FirstSeen.lookup n c.entries with
  | none => exact absurd (mem_names.mpr ⟨codes, he⟩) (FirstSeen.lookup_eq_none_iff.mp hget)
  | some codes' =>
    have hsame := List.inj_on_of_nodup_map c.nodup (FirstSeen.mem_of_lookup_eq_some hget) he rfl
    exact congrArg some (Prod.ext_iff.mp hsame).2

theorem nodup_names (c : Candidates) : c.names.Nodup := c.nodup

theorem length_names (c : Candidates) : c.names.length = c.size := by
  rw [names, List.length_map, size]

/-- With fewer sets than cards there is no choice. -/
theorem size_le_of_isChoice {c : Candidates} {f : CardName → SetCode} (h : c.IsChoice f) :
    c.size ≤ c.codes.size := by
  have hnodup : (c.names.map f).Nodup := c.nodup_names.map_on fun m hm n hn heq => h.injOn hm hn heq
  have hsub : c.names.map f ⊆ c.codes.toList := by
    intro code hcode
    obtain ⟨n, hn, rfl⟩ := List.mem_map.mp hcode
    obtain ⟨codes, he⟩ := mem_names.mp hn
    exact mem_codes.mpr ⟨(n, codes), he, h.mem _ he⟩
  have hle := (List.subperm_of_subset hnodup hsub).length_le
  rwa [List.length_map, length_names] at hle

end Candidates

namespace Pairing

/-- What the walk over the cards finds out: every card has one of its candidates, none of them used before, and
no two cards have the same one. -/
theorem serves_iff {p : Pairing} {used : SetCodes} {l : List (CardName × SetCodes)} :
    p.serves used l = true ↔
      (∀ e ∈ l, ∃ code ∈ e.2, p.get? e.1 = some code ∧ code ∉ used) ∧
        l.Pairwise fun e e' => p.get? e.1 ≠ p.get? e'.1 := by
  induction l generalizing used with
  | nil => simp [serves]
  | cons e l ih =>
    obtain ⟨n, codes⟩ := e
    rw [serves, List.forall_mem_cons, List.pairwise_cons]
    cases hn : p.get? n with
    | none => simp
    | some code =>
      -- a later card may have any set but the ones used before and `code`
      have hlater : (∀ e ∈ l, ∃ code' ∈ e.2, p.get? e.1 = some code' ∧ code' ∉ used.insert code) ↔
          (∀ e ∈ l, ∃ code' ∈ e.2, p.get? e.1 = some code' ∧ code' ∉ used) ∧
            ∀ e ∈ l, some code ≠ p.get? e.1 := by
        rw [← forall₂_and]
        refine forall₂_congr fun e _ => ⟨?_, ?_⟩
        · rintro ⟨code', hmem, hget, hnot⟩
          rw [SortedSet.mem_insert, not_or] at hnot
          exact ⟨⟨code', hmem, hget, hnot.2⟩, fun heq => hnot.1 (Option.some.inj (hget.symm.trans heq.symm))⟩
        · rintro ⟨⟨code', hmem, hget, hnot⟩, hne⟩
          refine ⟨code', hmem, hget, fun hin => ?_⟩
          rcases SortedSet.mem_insert.mp hin with rfl | hin
          · exact hne hget.symm
          · exact hnot hin
      have hhead : (∃ code' ∈ codes, some code = some code' ∧ code' ∉ used) ↔ code ∈ codes ∧ code ∉ used := by
        constructor
        · rintro ⟨code', hmem, heq, hnot⟩
          obtain rfl := Option.some.inj heq
          exact ⟨hmem, hnot⟩
        · rintro ⟨hmem, hnot⟩
          exact ⟨code, hmem, rfl, hnot⟩
      simp only [Bool.and_eq_true, Bool.not_eq_true', ih, hlater, hhead, SortedSet.contains_iff,
        Bool.eq_false_iff, ne_eq]
      constructor
      · rintro ⟨⟨hmem, hnot⟩, ⟨hserved, hne⟩, hpair⟩
        exact ⟨⟨⟨hmem, hnot⟩, hserved⟩, hne, hpair⟩
      · rintro ⟨⟨⟨hmem, hnot⟩, hserved⟩, hne, hpair⟩
        exact ⟨⟨hmem, hnot⟩, ⟨hserved, hne⟩, hpair⟩

/-- A pairing that holds a choice for exactly the cards of some candidates has these cards as its keys. -/
theorem mem_keys_iff_of_graph {p : Pairing} {c : Candidates} {f : CardName → SetCode}
    (hp : ∀ n code, p.get? n = some code ↔ n ∈ c.names ∧ f n = code) (n : CardName) :
    n ∈ p.keys ↔ n ∈ c.names := by
  rw [SortedMap.mem_keys]
  constructor
  · rintro ⟨code, hcode⟩
    exact ((hp n code).mp hcode).1
  · intro hn
    exact ⟨f n, (hp n _).mpr ⟨hn, rfl⟩⟩

/-- A pairing for exactly the cards of some candidates has their size. -/
theorem size_eq_of_mem_keys_iff {p : Pairing} {c : Candidates} (h : ∀ n, n ∈ p.keys ↔ n ∈ c.names) :
    p.size = c.size := by
  have hperm : p.keys.Perm c.names := (List.perm_ext_iff_of_nodup p.nodup_keys c.nodup_names).mpr h
  have hlen := hperm.length_eq
  rwa [Candidates.length_names, SortedMap.keys, List.length_map] at hlen

/-- **A pairing that holds a choice for exactly the cards of some candidates satisfies them.** -/
theorem satisfies_of_isChoice {p : Pairing} {c : Candidates} {f : CardName → SetCode} (hf : c.IsChoice f)
    (hp : ∀ n code, p.get? n = some code ↔ n ∈ c.names ∧ f n = code) : p.satisfies c = true := by
  have hget : ∀ e ∈ c.entries, p.get? e.1 = some (f e.1) := fun e he =>
    (hp e.1 _).mpr ⟨List.mem_map_of_mem he, rfl⟩
  rw [satisfies, Bool.and_eq_true, decide_eq_true_iff, serves_iff]
  refine ⟨size_eq_of_mem_keys_iff (mem_keys_iff_of_graph hp), fun e he => ?_, ?_⟩
  · exact ⟨f e.1, hf.mem e he, hget e he, SortedSet.not_mem_empty _⟩
  · have hnames : c.entries.Pairwise fun e e' => e.1 ≠ e'.1 := List.pairwise_map.mp c.nodup
    refine hnames.imp_of_mem fun {e e'} he he' hne heq => hne ?_
    rw [hget e he, hget e' he'] at heq
    exact hf.injOn (List.mem_map_of_mem he) (List.mem_map_of_mem he') (Option.some.inj heq)

/-- **A pairing that satisfies some candidates holds a choice.** -/
theorem isChoice_of_satisfies {p : Pairing} {c : Candidates} (h : p.satisfies c = true) :
    c.IsChoice fun n => (p.get? n).getD default := by
  rw [satisfies, Bool.and_eq_true, serves_iff] at h
  obtain ⟨-, hserved, hpair⟩ := h
  refine ⟨fun e he => ?_, fun m hm n hn heq => ?_⟩
  · obtain ⟨code, hmem, hget, -⟩ := hserved e he
    rw [hget, Option.getD_some]
    exact hmem
  · obtain ⟨codes, he⟩ := Candidates.mem_names.mp hm
    obtain ⟨codes', he'⟩ := Candidates.mem_names.mp hn
    obtain ⟨code, -, hget, -⟩ := hserved _ he
    obtain ⟨code', -, hget', -⟩ := hserved _ he'
    have hsame : p.get? m = p.get? n := by
      simp only [hget, hget', Option.getD_some] at heq
      rw [hget, hget', heq]
    by_contra hne
    have hentries : (m, codes) ≠ (n, codes') := fun heq' => hne (congrArg Prod.fst heq')
    have : Std.Symm fun e e' : CardName × SetCodes => p.get? e.1 ≠ p.get? e'.1 := ⟨fun _ _ => Ne.symm⟩
    exact hpair.forall he he' hentries hsame

/-! ## What it means to satisfy candidates -/

/-- A pairing of the size of some candidates that has all their cards has no other card. -/
theorem mem_keys_iff_of_size_eq {p : Pairing} {c : Candidates} (hsize : p.size = c.size)
    (hnames : ∀ n ∈ c.names, n ∈ p.keys) (n : CardName) : n ∈ p.keys ↔ n ∈ c.names := by
  have hlength : p.keys.length ≤ c.names.length := by
    rw [Candidates.length_names, ← hsize, SortedMap.keys, List.length_map, SortedMap.size]
  have hperm : c.names.Perm p.keys :=
    (List.subperm_of_subset c.nodup_names hnames).perm_of_length_le hlength
  exact hperm.mem_iff.symm

theorem mem_keys_iff_of_satisfies {p : Pairing} {c : Candidates} (h : p.satisfies c = true) (n : CardName) :
    n ∈ p.keys ↔ n ∈ c.names := by
  rw [satisfies, Bool.and_eq_true, decide_eq_true_iff, serves_iff] at h
  obtain ⟨hsize, hserved, -⟩ := h
  refine mem_keys_iff_of_size_eq hsize (fun m hm => ?_) n
  obtain ⟨codes, he⟩ := Candidates.mem_names.mp hm
  obtain ⟨code, -, hget, -⟩ := hserved _ he
  exact SortedMap.mem_keys.mpr ⟨code, hget⟩

/-- A pairing for exactly the cards of some candidates is the graph of a function on these cards. -/
theorem get?_eq_some_iff_of_mem_keys_iff {p : Pairing} {c : Candidates} (h : ∀ n, n ∈ p.keys ↔ n ∈ c.names)
    (n : CardName) (code : SetCode) :
    p.get? n = some code ↔ n ∈ c.names ∧ (p.get? n).getD default = code := by
  rw [← h, SortedMap.mem_keys]
  constructor
  · intro hn
    exact ⟨⟨code, hn⟩, by rw [hn, Option.getD_some]⟩
  · rintro ⟨⟨code', hn⟩, rfl⟩
    rw [hn, Option.getD_some]

/-- Whether this function is a choice can be seen from the look-ups. -/
theorem isChoice_iff_of_mem_keys_iff {p : Pairing} {c : Candidates} (h : ∀ n, n ∈ p.keys ↔ n ∈ c.names) :
    (c.IsChoice fun n => (p.get? n).getD default) ↔
      (∀ n code, p.get? n = some code → ∃ codes, c.get? n = some codes ∧ code ∈ codes) ∧
      ∀ m n code, p.get? m = some code → p.get? n = some code → m = n := by
  have hgraph := get?_eq_some_iff_of_mem_keys_iff h
  constructor
  · refine fun hchoice => ⟨fun n code hn => ?_, fun m n code hm hn => ?_⟩
    · obtain ⟨hcard, rfl⟩ := (hgraph n code).mp hn
      obtain ⟨codes, he⟩ := Candidates.mem_names.mp hcard
      exact ⟨codes, Candidates.get?_eq_some_iff.mpr he, hchoice.mem _ he⟩
    · obtain ⟨hm, hmcode⟩ := (hgraph m code).mp hm
      obtain ⟨hn, hncode⟩ := (hgraph n code).mp hn
      exact hchoice.injOn hm hn (hmcode.trans hncode.symm)
  · rintro ⟨hcandidate, hdistinct⟩
    refine ⟨fun e he => ?_, fun m hm n hn heq => ?_⟩
    · obtain ⟨codes, hcodes, hmem⟩ := hcandidate e.1 _ ((hgraph e.1 _).mpr ⟨List.mem_map_of_mem he, rfl⟩)
      rw [Candidates.get?_eq_some_iff.mpr he] at hcodes
      rwa [Option.some.inj hcodes]
    · exact hdistinct m n _ ((hgraph m _).mpr ⟨hm, heq⟩) ((hgraph n _).mpr ⟨hn, rfl⟩)

/-- **A pairing satisfies some candidates exactly when it is what it should be**: its cards are the cards of the
candidates, the set of each card is one of the candidates of the card, and no two cards have the same set. -/
theorem satisfies_iff (p : Pairing) (c : Candidates) :
    p.satisfies c = true ↔
      (∀ n, n ∈ p.keys ↔ n ∈ c.names) ∧
      (∀ n code, p.get? n = some code → ∃ codes, c.get? n = some codes ∧ code ∈ codes) ∧
      ∀ m n code, p.get? m = some code → p.get? n = some code → m = n := by
  constructor
  · intro h
    have hkeys := mem_keys_iff_of_satisfies h
    exact ⟨hkeys, (isChoice_iff_of_mem_keys_iff hkeys).mp (isChoice_of_satisfies h)⟩
  · rintro ⟨hkeys, h⟩
    exact satisfies_of_isChoice ((isChoice_iff_of_mem_keys_iff hkeys).mpr h) (get?_eq_some_iff_of_mem_keys_iff hkeys)

end Pairing

end DeckLegality
