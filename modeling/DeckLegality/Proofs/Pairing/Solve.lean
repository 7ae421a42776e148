import DeckLegality.Proofs.Pairing.Numbers
import DeckLegality.Proofs.Search.Place

/-!
# What the solver answers

`Candidates.solve` gives up at once when there are fewer sets than cards and searches otherwise.  By
`solve_pairing_eq` the answer of a search is made of the first completion of its first state, which is said without
mentioning memoisation or anything else that a search carries along.  So the main statements are short.

* `solve_eq_none_iff`: no answer means that there is none, for pairings and for choices.
* `solve_sound`: an answer satisfies the candidates.
* `solve_memoize_eq`: memoisation does not change the answer.
-/

namespace DeckLegality

namespace Candidates

open Search

theorem sound_start (c : Candidates) : Sound c.options c.start where
  room := c.hasRoom_start
  length_chosen := by rw [start, List.length_replicate, length_options]
  dead key hkey := by
    rw [start, Std.HashSet.contains_empty] at hkey
    exact absurd hkey Bool.false_ne_true

/-- The pairing of an answer is made of the sets that the search leaves chosen. -/
theorem pairing_solve {c : Candidates} (hsize : c.size ≤ c.codes.size) (memoize : Bool) :
    (c.solve memoize).pairing =
      if (place memoize c.options c.size c.start).1 then
        some (c.pairingOf (place memoize c.options c.size c.start).2.chosen)
      else none := by
  rw [solve, if_neg (Nat.not_lt.mpr hsize)]
  split
  · next hres => rw [hres, if_pos rfl]
  · next hres => rw [hres, if_neg Bool.false_ne_true]

/-- The answer of a search is the pairing of the first completion. -/
theorem solve_pairing_eq {c : Candidates} (hsize : c.size ≤ c.codes.size) (memoize : Bool) :
    (c.solve memoize).pairing =
      (firstCompletion c.options c.size c.start.placed c.start.used).map
        fun g => c.pairingOf ((List.range c.size).map g) := by
  have hout := outcome_place memoize c.options c.size c.start c.sound_start c.card_unplaced_start.symm
  rw [pairing_solve hsize, hout.fst_eq]
  cases hfirst : firstCompletion c.options c.size c.start.placed c.start.used with
  | none => rfl
  | some g =>
    have hchosen : (place memoize c.options c.size c.start).2.chosen = (List.range c.size).map g := by
      have hlen := hout.sound.length_chosen.trans c.length_options
      refine List.ext_getElem (by rw [hlen, List.length_map, List.length_range]) fun i hi _ => ?_
      have hget := hout.chosen_of_some g hfirst i (mem_unplaced_start.mpr (by rwa [hlen] at hi))
      rw [List.getElem?_eq_getElem hi] at hget
      rw [Option.some.inj hget, List.getElem_map, List.getElem_range]
    rw [hchosen]
    rfl

/-- There is an answer if the search succeeds. -/
theorem isSome_pairing_solve {c : Candidates} (hsize : c.size ≤ c.codes.size) (memoize : Bool) :
    (c.solve memoize).pairing.isSome = (place memoize c.options c.size c.start).1 := by
  rw [pairing_solve hsize]
  cases (place memoize c.options c.size c.start).1 <;> rfl

/-- The counters of an answer are those of the search. -/
theorem stats_solve {c : Candidates} (hsize : c.size ≤ c.codes.size) (memoize : Bool) :
    (c.solve memoize).stats = (place memoize c.options c.size c.start).2.stats := by
  rw [solve, if_neg (Nat.not_lt.mpr hsize)]
  split
  · next hres => rw [hres]
  · next hres => rw [hres]

/-- An answer comes from a choice and holds exactly its sets. -/
theorem exists_choice_of_solve {c : Candidates} {memoize : Bool} {p : Pairing}
    (h : (c.solve memoize).pairing = some p) :
    ∃ f, c.IsChoice f ∧ ∀ n code, p.get? n = some code ↔ n ∈ c.names ∧ f n = code := by
  rcases Nat.lt_or_ge c.codes.size c.size with hlt | hge
  · rw [solve, if_pos hlt] at h
    exact absurd h.symm (Option.some_ne_none p)
  · rw [solve_pairing_eq hge, Option.map_eq_some_iff] at h
    obtain ⟨g, hg, rfl⟩ := h
    have hcomp := completes_firstCompletion c.hasRoom_start c.card_unplaced_start.symm hg
    exact ⟨c.choiceOf g, isChoice_choiceOf hcomp, get?_pairingOf hcomp⟩

/-- Without an answer there is no choice. -/
theorem not_isChoice_of_solve {c : Candidates} {memoize : Bool} (h : (c.solve memoize).pairing = none) :
    ¬ ∃ f, c.IsChoice f := by
  rcases Nat.lt_or_ge c.codes.size c.size with hlt | hge
  · rintro ⟨f, hf⟩
    exact absurd (size_le_of_isChoice hf) (Nat.not_le.mpr hlt)
  · rw [solve_pairing_eq hge, Option.map_eq_none_iff,
      firstCompletion_eq_none_iff c.hasRoom_start c.card_unplaced_start.symm] at h
    exact c.dead_start_iff.mp h

/-- **Without an answer there is nothing to be found**: no choice of a set of its own for every card, and no
pairing that satisfies the candidates.  Conversely, where nothing is to be found there is no answer. -/
theorem solve_eq_none_iff (c : Candidates) (memoize : Bool) :
    ((c.solve memoize).pairing = none ↔ ¬ ∃ f, c.IsChoice f) ∧
      ((c.solve memoize).pairing = none ↔ ∀ p : Pairing, p.satisfies c = false) := by
  have hchoice : (c.solve memoize).pairing = none ↔ ¬ ∃ f, c.IsChoice f := by
    refine ⟨not_isChoice_of_solve, fun hnone => ?_⟩
    cases h : (c.solve memoize).pairing with
    | none => rfl
    | some p =>
      obtain ⟨f, hf, -⟩ := exists_choice_of_solve h
      exact absurd ⟨f, hf⟩ hnone
  refine ⟨hchoice, fun h p => ?_, fun hnone => ?_⟩
  · rw [Bool.eq_false_iff]
    exact fun hp => hchoice.mp h ⟨_, Pairing.isChoice_of_satisfies hp⟩
  · cases h : (c.solve memoize).pairing with
    | none => rfl
    | some p =>
      obtain ⟨f, hf, hp⟩ := exists_choice_of_solve h
      exact absurd (Pairing.satisfies_of_isChoice hf hp) (by rw [hnone p]; exact Bool.false_ne_true)

/-- **An answer satisfies the candidates**: it has one entry for each card and no other, each card has one of its
candidates, and no set is given to two cards.  Without cards the answer is the empty pairing. -/
theorem solve_sound (memoize : Bool) :
    (∀ (c : Candidates) (p : Pairing), (c.solve memoize).pairing = some p →
      p.satisfies c = true ∧ p.keys.Perm c.names ∧
        (∀ n codes, c.get? n = some codes → ∃ code ∈ codes, p.get? n = some code) ∧
        ∀ m n code, p.get? m = some code → p.get? n = some code → m = n) ∧
      (empty.solve memoize).pairing = some ∅ := by
  refine ⟨fun c p h => ?_, rfl⟩
  obtain ⟨f, hf, hp⟩ := exists_choice_of_solve h
  have hkeys : ∀ n, n ∈ p.keys ↔ n ∈ c.names := Pairing.mem_keys_iff_of_graph hp
  refine ⟨Pairing.satisfies_of_isChoice hf hp,
    (List.perm_ext_iff_of_nodup p.nodup_keys c.nodup_names).mpr hkeys, fun n codes hn => ?_,
    fun m n code hm hn => ?_⟩
  · have he := get?_eq_some_iff.mp hn
    exact ⟨f n, hf.mem _ he, (hp n _).mpr ⟨mem_names.mpr ⟨codes, he⟩, rfl⟩⟩
  · obtain ⟨hm, hmcode⟩ := (hp m code).mp hm
    obtain ⟨hn, hncode⟩ := (hp n code).mp hn
    exact hf.injOn hm hn (hmcode.trans hncode.symm)

/-- Three cards that share three sets. -/
def contested : Candidates :=
  .ofList [(⟨"A"⟩, .ofList [⟨"1"⟩, ⟨"2"⟩]), (⟨"B"⟩, .ofList [⟨"1"⟩, ⟨"3"⟩]), (⟨"C"⟩, .ofList [⟨"1"⟩, ⟨"3"⟩])]

/-- With the set `1` for `A` only the set `3` is left to `B` and `C`, so two choices are taken back. -/
theorem solve_sound_contested :
    (contested.solve false).stats.backtracks = 2 ∧
      (contested.solve false).pairing = some (.ofList [(⟨"A"⟩, ⟨"2"⟩), (⟨"B"⟩, ⟨"1"⟩), (⟨"C"⟩, ⟨"3"⟩)]) ∧
      Pairing.satisfies (.ofList [(⟨"A"⟩, ⟨"2"⟩), (⟨"B"⟩, ⟨"1"⟩), (⟨"C"⟩, ⟨"3"⟩)]) contested = true := by
  have hback : (contested.solve false).stats.backtracks = 2 := by decide +kernel
  have hsolve : (contested.solve false).pairing =
      some (.ofList [(⟨"A"⟩, ⟨"2"⟩), (⟨"B"⟩, ⟨"1"⟩), (⟨"C"⟩, ⟨"3"⟩)]) := by decide +kernel
  exact ⟨hback, hsolve, ((solve_sound false).1 contested _ hsolve).1⟩

/-- **Memoisation does not change the answer**: both searches find nothing, or both give every card the same
set. -/
theorem solve_memoize_eq (c : Candidates) : (c.solve true).pairing = (c.solve false).pairing := by
  rcases Nat.lt_or_ge c.codes.size c.size with hlt | hge
  · rw [solve, solve, if_pos hlt, if_pos hlt]
  · rw [solve_pairing_eq hge, solve_pairing_eq hge]

end Candidates

end DeckLegality
