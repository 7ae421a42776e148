import DeckLegality.BitSet
import Mathlib.Data.Finset.Card

/-!
# The finite set that a bit set stands for

A bit set is empty at first; then numbers are put in and taken out, and it goes without the members of other bit sets that
came about in the same way.  A `BitSetHistory` is such a course of events.  Only numbers that have room can be put in or
taken out, and the bit set whose members are taken away may have more words or fewer.

The same events on finite sets give `BitSetHistory.members`, which knows of no words and no bits.  `BitSet.Denotes` says
that whatever a bit set is asked, it answers as a finite set would; since its members decide all the answers
(`BitSet.denotes_iff`), each operation has to be looked at through `contains` only.

* `BitSetHistory.exists_run?_iff`: a bit set comes about exactly if there is room for every number.
* `BitSetHistory.leadsTo_of_run?`: it stands for the members of its history.
-/

namespace DeckLegality

namespace BitSet

/-- Whatever the bit set is asked, it answers as the finite set `m` would. -/
structure Denotes (s : BitSet) (m : Finset ℕ) : Prop where
  contains_eq (i : ℕ) : s.contains i = decide (i ∈ m)
  mem_toList_iff (i : ℕ) : i ∈ s.toList ↔ i ∈ m
  ascending : s.toList.Pairwise (· < ·)
  count_eq : s.count = m.card
  isEmpty_iff : s.isEmpty = true ↔ m = ∅
  lt_of_mem : ∀ i ∈ m, i < 64 * s.words.length

variable {s t : BitSet} {m n : Finset ℕ} {i : ℕ}

theorem isEmpty_iff_forall_contains (s : BitSet) : s.isEmpty = true ↔ ∀ i, s.contains i = false := by
  rw [isEmpty, List.all_eq_true]
  constructor
  · intro hzero i
    rw [contains_eq]
    cases hw : s.words[i / 64]? with
    | none => rw [Option.getD_none, BitVec.getLsbD_zero]
    | some w =>
      rw [Option.getD_some, of_decide_eq_true (hzero w (List.mem_of_getElem? hw)), BitVec.getLsbD_zero]
  · intro hnone w hw
    obtain ⟨k, hk⟩ := List.mem_iff_getElem?.mp hw
    refine decide_eq_true (BitVec.eq_of_getLsbD_eq fun j hj => ?_)
    have hkj : (64 * k + j) / 64 = k ∧ (64 * k + j) % 64 = j := by omega
    have hbit := hnone (64 * k + j)
    rw [contains_eq, hkj.1, hkj.2, hk, Option.getD_some] at hbit
    rw [hbit, BitVec.getLsbD_zero]

/-- The members of a bit set decide all that it can be asked. -/
theorem denotes_iff : s.Denotes m ↔ ∀ i, s.contains i = true ↔ i ∈ m := by
  constructor
  · intro h i
    rw [h.contains_eq, decide_eq_true_iff]
  · intro h
    have hlist : s.toList.toFinset = m := by
      ext i
      rw [List.mem_toFinset, mem_toList, h]
    have hnodup : s.toList.Nodup := s.pairwise_toList.imp fun hlt => hlt.ne
    refine
      { contains_eq := fun i => ?_
        mem_toList_iff := fun i => mem_toList.trans (h i)
        ascending := s.pairwise_toList
        count_eq := ?_
        isEmpty_iff := ?_
        lt_of_mem := fun i hi => lt_capacity_of_contains ((h i).mpr hi) }
    · rw [Bool.eq_iff_iff, h, decide_eq_true_iff]
    · rw [count_eq_length_toList, ← hlist, List.toFinset_card_of_nodup hnodup]
    · rw [isEmpty_iff_forall_contains, Finset.eq_empty_iff_forall_notMem]
      exact forall_congr' fun i => by rw [← h, Bool.not_eq_true]

/-- Bit sets with as many words are equal exactly if they stand for the same finite set. -/
theorem Denotes.eq_iff (hs : s.Denotes m) (ht : t.Denotes n) (hwords : s.words.length = t.words.length) :
    s = t ↔ m = n := by
  constructor
  · rintro rfl
    ext i
    rw [← denotes_iff.mp hs, denotes_iff.mp ht]
  · rintro rfl
    refine ext_contains (congrArg (64 * ·) hwords) fun i => ?_
    rw [hs.contains_eq, ht.contains_eq]

/-! ## The operations -/

theorem denotes_withWidth (width : ℕ) : (withWidth width).Denotes ∅ := by
  refine denotes_iff.mpr fun i => ?_
  simp

theorem Denotes.insert (h : s.Denotes m) (hi : i < s.capacity) : (s.insert i).Denotes (Insert.insert i m) := by
  refine denotes_iff.mpr fun j => ?_
  rw [contains_insert hi, Bool.or_eq_true, decide_eq_true_iff, denotes_iff.mp h, Finset.mem_insert]

theorem Denotes.erase (h : s.Denotes m) (i : ℕ) : (s.erase i).Denotes (m.erase i) := by
  refine denotes_iff.mpr fun j => ?_
  rw [contains_erase, Bool.and_eq_true, denotes_iff.mp h, Bool.not_eq_true', decide_eq_false_iff_not,
    Finset.mem_erase, and_comm]

theorem Denotes.difference (hs : s.Denotes m) (ht : t.Denotes n) : (s.difference t).Denotes (m \ n) := by
  refine denotes_iff.mpr fun j => ?_
  rw [contains_difference, Bool.and_eq_true, denotes_iff.mp hs, Bool.not_eq_true', ht.contains_eq,
    decide_eq_false_iff_not, Finset.mem_sdiff]

theorem length_words_difference (s t : BitSet) : (s.difference t).words.length = s.words.length := by
  rw [difference, List.length_zipWith, List.length_append, List.length_replicate]
  omega

theorem insert?_eq_some_iff : s.insert? i = some t ↔ i < s.capacity ∧ s.insert i = t := by
  rw [insert?, Option.ite_none_right_eq_some, Option.some_inj]

theorem erase?_eq_some_iff : s.erase? i = some t ↔ i < s.capacity ∧ s.erase i = t := by
  rw [erase?, Option.ite_none_right_eq_some, Option.some_inj]

end BitSet

/-! ## Courses of events -/

/-- How a bit set comes about. -/
inductive BitSetHistory where
  | new (width : ℕ)
  | put (h : BitSetHistory) (i : ℕ)
  | takeOut (h : BitSetHistory) (i : ℕ)
  | without (h h' : BitSetHistory)

namespace BitSetHistory

/-- The bit set that comes about, unless there is no room for some number. -/
def run? : BitSetHistory → Option BitSet
  | new width => some (.withWidth width)
  | put h i => h.run?.bind (·.insert? i)
  | takeOut h i => h.run?.bind (·.erase? i)
  | without h h' => h.run?.bind fun s => h'.run?.map s.difference

/-- The finite set that the same events lead to. -/
def members : BitSetHistory → Finset ℕ
  | new _ => ∅
  | put h i => insert i h.members
  | takeOut h i => h.members.erase i
  | without h h' => h.members \ h'.members

/-- The number of words, which is settled when the bit set is made: enough for the width, and at least one. -/
def wordCount : BitSetHistory → ℕ
  | new width => max 1 ((width + 63) / 64)
  | put h _ => h.wordCount
  | takeOut h _ => h.wordCount
  | without h _ => h.wordCount

/-- There is room for every number that is put in or taken out. -/
def HasRoom : BitSetHistory → Prop
  | new _ => True
  | put h i => h.HasRoom ∧ i < 64 * h.wordCount
  | takeOut h i => h.HasRoom ∧ i < 64 * h.wordCount
  | without h h' => h.HasRoom ∧ h'.HasRoom

variable {h h' : BitSetHistory} {s t : BitSet} {i : ℕ}

/-- The bit set is what the history says: it has as many words as were made, and stands for the members. -/
structure LeadsTo (h : BitSetHistory) (s : BitSet) : Prop where
  length_words : s.words.length = h.wordCount
  denotes : s.Denotes h.members

theorem LeadsTo.capacity (hs : h.LeadsTo s) : s.capacity = 64 * h.wordCount := congrArg (64 * ·) hs.length_words

theorem LeadsTo.put (hs : h.LeadsTo s) (hi : i < s.capacity) : (put h i).LeadsTo (s.insert i) :=
  ⟨(List.length_modify ..).trans hs.length_words, hs.denotes.insert hi⟩

theorem LeadsTo.takeOut (hs : h.LeadsTo s) (i : ℕ) : (takeOut h i).LeadsTo (s.erase i) :=
  ⟨(List.length_modify ..).trans hs.length_words, hs.denotes.erase i⟩

theorem LeadsTo.without (hs : h.LeadsTo s) (ht : h'.LeadsTo t) : (without h h').LeadsTo (s.difference t) :=
  ⟨(BitSet.length_words_difference s t).trans hs.length_words, hs.denotes.difference ht.denotes⟩

/-- What comes about is what the history says. -/
theorem leadsTo_of_run? (hs : h.run? = some s) : h.LeadsTo s := by
  induction h generalizing s with
  | new width =>
    obtain rfl := Option.some.inj hs
    exact ⟨List.length_replicate, BitSet.denotes_withWidth width⟩
  | put h i ih =>
    obtain ⟨t, ht, hput⟩ := Option.bind_eq_some_iff.mp hs
    obtain ⟨hi, rfl⟩ := BitSet.insert?_eq_some_iff.mp hput
    exact (ih ht).put hi
  | takeOut h i ih =>
    obtain ⟨t, ht, htake⟩ := Option.bind_eq_some_iff.mp hs
    obtain ⟨-, rfl⟩ := BitSet.erase?_eq_some_iff.mp htake
    exact (ih ht).takeOut i
  | without h h' ih ih' =>
    obtain ⟨t, ht, hrest⟩ := Option.bind_eq_some_iff.mp hs
    obtain ⟨u, hu, rfl⟩ := Option.map_eq_some_iff.mp hrest
    exact (ih ht).without (ih' hu)

/-- A step that needs room for a number is made exactly if there is room for it. -/
theorem exists_bind_run?_iff {step : BitSet → Option BitSet}
    (hstep : ∀ s, (∃ t, step s = some t) ↔ i < s.capacity) :
    (∃ t, h.run?.bind step = some t) ↔ (∃ s, h.run? = some s) ∧ i < 64 * h.wordCount := by
  constructor
  · rintro ⟨t, ht⟩
    obtain ⟨s, hs, hst⟩ := Option.bind_eq_some_iff.mp ht
    refine ⟨⟨s, hs⟩, ?_⟩
    rw [← (leadsTo_of_run? hs).capacity, ← hstep]
    exact ⟨t, hst⟩
  · rintro ⟨⟨s, hs⟩, hi⟩
    rw [← (leadsTo_of_run? hs).capacity, ← hstep] at hi
    rwa [hs, Option.bind_some]

/-- A bit set comes about exactly if there is room for every number. -/
theorem exists_run?_iff (h : BitSetHistory) : (∃ s, h.run? = some s) ↔ h.HasRoom := by
  induction h with
  | new width => exact iff_of_true ⟨_, rfl⟩ trivial
  | put h i ih =>
    rw [run?, HasRoom, ← ih]
    exact exists_bind_run?_iff fun s => by simp [BitSet.insert?_eq_some_iff]
  | takeOut h i ih =>
    rw [run?, HasRoom, ← ih]
    exact exists_bind_run?_iff fun s => by simp [BitSet.erase?_eq_some_iff]
  | without h h' ih ih' =>
    rw [run?, HasRoom, ← ih, ← ih']
    constructor
    · rintro ⟨u, hu⟩
      obtain ⟨s, hs, hrest⟩ := Option.bind_eq_some_iff.mp hu
      obtain ⟨t, ht, -⟩ := Option.map_eq_some_iff.mp hrest
      exact ⟨⟨s, hs⟩, ⟨t, ht⟩⟩
    · rintro ⟨⟨s, hs⟩, ⟨t, ht⟩⟩
      exact ⟨s.difference t, by rw [hs, ht, Option.bind_some, Option.map_some]⟩

/-- **A bit set stands for the finite set that its history leads to.**  It comes about exactly if there is room for every
number that is put in or taken out.  Then it has the words that it was made with, and it answers all questions as the finite
set would.  Two bit sets with as many words are equal exactly if they stand for the same set. -/
theorem exists_run?_iff_and_denotes :
    (∀ h : BitSetHistory, (∃ s, h.run? = some s) ↔ h.HasRoom) ∧
    (∀ (h : BitSetHistory) (s : BitSet), h.run? = some s →
      s.words.length = h.wordCount ∧ s.Denotes h.members) ∧
    ∀ (h h' : BitSetHistory) (s s' : BitSet), h.run? = some s → h'.run? = some s' →
      s.words.length = s'.words.length → (s = s' ↔ h.members = h'.members) := by
  refine ⟨exists_run?_iff, fun h s hs => ?_, fun h h' s s' hs hs' hwords => ?_⟩
  · have hleads := leadsTo_of_run? hs
    exact ⟨hleads.length_words, hleads.denotes⟩
  · exact (leadsTo_of_run? hs).denotes.eq_iff (leadsTo_of_run? hs').denotes hwords

/-- Numbers on both sides of the ends of words, some of them taken away by a bit set with more words. -/
def roundabout : BitSetHistory :=
  without (takeOut (put (put (put (put (new 130) 129) 64) 63) 0) 64) (put (put (new 300) 299) 129)

/-- The numbers that are left, put in at once. -/
def straight : BitSetHistory := put (put (new 192) 0) 63

theorem exists_run?_iff_and_denotes_roundabout :
    roundabout.HasRoom ∧ straight.HasRoom ∧
      ∃ s, roundabout.run? = some s ∧ straight.run? = some s ∧ s.words.length = 3 ∧ s.Denotes {0, 63} := by
  have hroom : roundabout.HasRoom := by simp [roundabout, HasRoom, wordCount]
  have hroom' : straight.HasRoom := by simp [straight, HasRoom, wordCount]
  obtain ⟨hruns, hdenotes, heq⟩ := exists_run?_iff_and_denotes
  obtain ⟨s, hs⟩ := (hruns roundabout).mpr hroom
  obtain ⟨s', hs'⟩ := (hruns straight).mpr hroom'
  obtain ⟨hwords, hden⟩ := hdenotes roundabout s hs
  obtain ⟨hwords', -⟩ := hdenotes straight s' hs'
  have hmembers : roundabout.members = {0, 63} := by decide
  have hmembers' : straight.members = {0, 63} := by decide
  obtain rfl : s = s' := (heq _ _ s s' hs hs' (hwords.trans hwords'.symm)).mpr (hmembers.trans hmembers'.symm)
  exact ⟨hroom, hroom', s, hs, hs', hwords, hmembers ▸ hden⟩

end BitSetHistory

end DeckLegality
