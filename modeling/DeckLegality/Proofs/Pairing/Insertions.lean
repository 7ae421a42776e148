import DeckLegality.Proofs.Deck.History
import DeckLegality.Proofs.Json.Entries
import DeckLegality.Proofs.Pairing.Numbers

/-!
# How candidates come about

Candidates come about by insertions, and a card may come in several times.  All that the insertions leave behind is the
order in which the cards first came in and, for each card, the sets that were put in for it.  The solver sees nothing
else: it numbers the sets by their ascending order, so it does not matter in how many parts the sets of a card came in,
nor in which order the sets of a card are gone through when they are numbered.

* `Candidates.collects_inserted`: what insertions leave behind.
* `Candidates.inserted_eq_iff`: when two courses of insertions leave the same behind.
* `Candidates.IsListing.solveListing_eq`: the solver, given the sets of each card in any order.
-/

namespace DeckLegality

namespace Candidates

/-! ## Insertions -/

/-- The candidates that come about when sets are put in for one card after the other. -/
def inserted (l : List (GivenName × SetCodes)) : Candidates := l.foldl (fun c e => c.insert e.1.toCard e.2) empty

/-- The cards that sets were put in for, each where it came first. -/
def cardsOf (l : List (GivenName × SetCodes)) : List CardName := (l.map (·.1.toCard)).eraseDups

/-- The set `code` was put in for the card `n`. -/
def PutsIn (l : List (GivenName × SetCodes)) (n : CardName) (code : SetCode) : Prop :=
  ∃ e ∈ l, e.1.toCard = n ∧ code ∈ e.2

/-- The candidates are what was put in: each card once, where it first came in, and with it all the sets that were put
in for it; and the index has each card at its position in this order, and no other cards and positions. -/
structure Collects (c : Candidates) (l : List (GivenName × SetCodes)) : Prop where
  names : c.names = cardsOf l
  index (n : CardName) (pos : ℕ) : c.index n = some pos ↔ (cardsOf l)[pos]? = some n
  get?_eq_some (n : CardName) (codes : SetCodes) :
    c.get? n = some codes ↔ n ∈ cardsOf l ∧ ∀ code, code ∈ codes ↔ PutsIn l n code

/-- The same cards came in, in the same order, and for each card the same sets, taken together. -/
structure SameInsertions (l l' : List (GivenName × SetCodes)) : Prop where
  cards : cardsOf l = cardsOf l'
  sets (n : CardName) (code : SetCode) : PutsIn l n code ↔ PutsIn l' n code

variable {l l' : List (GivenName × SetCodes)}

theorem inserted_eq_ofList (l : List (GivenName × SetCodes)) :
    inserted l = ofList (l.map fun e => (e.1.toCard, e.2)) := by
  rw [inserted, ofList, List.foldl_map]

theorem names_inserted (l : List (GivenName × SetCodes)) : (inserted l).names = cardsOf l := by
  rw [inserted_eq_ofList, names_ofList, List.map_map]
  rfl

theorem offers_inserted {n : CardName} {code : SetCode} : (inserted l).Offers n code ↔ PutsIn l n code := by
  rw [inserted_eq_ofList, offers_ofList, PutsIn]
  simp only [List.mem_map, exists_exists_and_eq_and]

theorem collects_inserted (l : List (GivenName × SetCodes)) : (inserted l).Collects l where
  names := names_inserted l
  index n pos := by
    rw [← names_inserted]
    exact (inserted l).aligned n pos
  get?_eq_some n codes := by
    rw [← names_inserted]
    constructor
    · intro hget
      refine ⟨mem_names.mpr ⟨codes, get?_eq_some_iff.mp hget⟩, fun code => ?_⟩
      rw [← offers_inserted, ← mem_getD_get?, hget, Option.getD_some]
    · rintro ⟨hn, hcodes⟩
      obtain ⟨codes', he⟩ := mem_names.mp hn
      have hget := get?_eq_some_iff.mpr he
      refine hget.trans (congrArg some (SortedSet.ext_mem fun code => ?_))
      rw [hcodes, ← offers_inserted, ← mem_getD_get?, hget, Option.getD_some]

/-- Nothing but the cards in their order and their sets is left behind. -/
theorem inserted_eq_iff : inserted l = inserted l' ↔ SameInsertions l l' := by
  constructor
  · intro h
    refine ⟨?_, fun n code => ?_⟩
    · rw [← names_inserted, ← names_inserted, h]
    · rw [← offers_inserted, ← offers_inserted, h]
  · rintro ⟨hcards, hsets⟩
    refine ext_names_offers ?_ fun n code => ?_
    · rw [names_inserted, names_inserted, hcards]
    · rw [offers_inserted, offers_inserted, hsets]

/-! ## The solver and the order of the sets -/

/-- The numbers of the sets of a list, put in in the order of the list. -/
def numbersIn (codes l : List SetCode) : BitSet :=
  l.foldl (fun s code => s.insert (codes.idxOf code)) (.withWidth codes.length)

/-- A search as in `solve`, where the sets of each card are given in some order, and are numbered in that order. -/
def solveListing (l : List (CardName × List SetCode)) (memoize : Bool) : SearchReport :=
  let codes := (SortedSet.ofList (l.flatMap (·.2)) : SetCodes).toList
  if codes.length < l.length then ⟨none, {}⟩
  else match Search.place memoize (l.map fun e => numbersIn codes e.2) l.length
      { placed := .withWidth l.length, used := .withWidth codes.length, chosen := List.replicate l.length 0 } with
    | (true, st) =>
      ⟨some (.ofList (((l.map (·.1)).zip st.chosen).filterMap fun (n, set) => codes[set]?.map (n, ·))), st.stats⟩
    | (false, st) => ⟨none, st.stats⟩

/-- The order in which numbers are put in makes no difference. -/
theorem numbersIn_eq_mask {codes l : List SetCode} {s : SetCodes} (hl : l.Perm s.toList)
    (hs : ∀ code ∈ s, code ∈ codes) : numbersIn codes l = mask codes s := by
  have hcap := BitSet.le_capacity_withWidth codes.length
  refine BitSet.ext_contains ?_ fun i => ?_
  · rw [numbersIn, capacity_foldl_insert, capacity_mask]
  · rw [Bool.eq_iff_iff, numbersIn, mask, contains_foldl_insert hcap fun code hcode => hs code (hl.mem_iff.mp hcode),
      contains_foldl_insert hcap hs]
    simp only [hl.mem_iff]

variable {c : Candidates} {listing : List (CardName × List SetCode)}

theorem IsListing.map_fst (h : c.IsListing listing) : listing.map (·.1) = c.names := by
  rw [names, ← List.forall₂_eq_eq_eq, List.forall₂_map_left_iff, List.forall₂_map_right_iff]
  exact h.imp fun _ _ hae => hae.1

theorem IsListing.codes_eq (h : c.IsListing listing) : SortedSet.ofList (listing.flatMap (·.2)) = c.codes := by
  have hperm : (listing.flatMap (·.2)).Perm (c.entries.flatMap (·.2.toList)) := by
    unfold IsListing at h
    generalize c.entries = entries at h
    induction h with
    | nil => exact .nil
    | cons hae _ ih => exact hae.2.append ih
  refine SortedSet.ext_mem fun code => ?_
  rw [codes, SortedSet.mem_ofList, SortedSet.mem_ofList, hperm.mem_iff]

theorem IsListing.options_eq (h : c.IsListing listing) :
    listing.map (fun e => numbersIn c.codes.toList e.2) = c.options := by
  have hcodes : ∀ e ∈ c.entries, ∀ code ∈ e.2, code ∈ c.codes.toList := fun e he code hcode =>
    mem_codes.mpr ⟨e, he, hcode⟩
  refine Eq.symm ?_
  rw [options, ← List.forall₂_eq_eq_eq, List.forall₂_map_left_iff, List.forall₂_map_right_iff]
  refine ((List.forall₂_and_left _ _).mpr ⟨hcodes, h.flip⟩).imp fun e a hea => ?_
  exact (numbersIn_eq_mask hea.2.2 hea.1).symm

/-- The order in which the sets of a card are gone through makes no difference. -/
theorem IsListing.solveListing_eq (h : c.IsListing listing) (memoize : Bool) :
    solveListing listing memoize = c.solve memoize := by
  have hlength : listing.length = c.size := by rw [← length_names, ← h.map_fst, List.length_map]
  simp only [solveListing, h.codes_eq, h.map_fst, h.options_eq, hlength]
  rfl

/-! ## What insertions leave behind -/

/-- **Candidates are what was put in, and the solver sees nothing else.**  The cards are in the order in which they first
came in, each with its position in the index, and each card has all the sets that were put in for it.  If the same cards came in in the same order, and the
same sets for each card, taken together, then the solver gives the same answer with the same counters, in whatever parts
the sets came in and in whatever order the sets of a card are gone through. -/
theorem collects_inserted_and_solve_eq :
    (∀ l, (inserted l).Collects l) ∧
    ∀ l l', SameInsertions l l' → ∀ memoize,
      (inserted l).solve memoize = (inserted l').solve memoize ∧
      ∀ listing, (inserted l').IsListing listing → solveListing listing memoize = (inserted l).solve memoize := by
  refine ⟨collects_inserted, fun l l' h memoize => ?_⟩
  have heq : inserted l = inserted l' := inserted_eq_iff.mpr h
  refine ⟨by rw [heq], fun listing hlisting => ?_⟩
  rw [hlisting.solveListing_eq, heq]

/-- The sets of a card come in in two parts, with another card in between. -/
def parted : List (GivenName × SetCodes) :=
  [(.typed "Dispel", .ofList [⟨"ALA"⟩]), (.card ⟨"Shock"⟩, .ofList [⟨"M19"⟩]), (.typed " Dispel\t", .ofList [⟨"RTR"⟩])]

/-- They come in at once, and the other card once more, without sets. -/
def gathered : List (GivenName × SetCodes) :=
  [(.card ⟨"Dispel"⟩, .ofList [⟨"RTR"⟩, ⟨"ALA"⟩]), (.typed "Shock\n", .ofList [⟨"M19"⟩]), (.typed "Shock", ∅)]

theorem isListing_gathered :
    (inserted gathered).IsListing [(⟨"Dispel"⟩, [⟨"RTR"⟩, ⟨"ALA"⟩]), (⟨"Shock"⟩, [⟨"M19"⟩])] := by
  have hentries : (inserted gathered).entries =
      [(⟨"Dispel"⟩, .ofList [⟨"ALA"⟩, ⟨"RTR"⟩]), (⟨"Shock"⟩, .ofList [⟨"M19"⟩])] := by decide +kernel
  rw [IsListing, hentries]
  exact .cons ⟨rfl, by decide +kernel⟩ (.cons ⟨rfl, by decide +kernel⟩ .nil)

theorem collects_inserted_and_solve_eq_parted :
    SameInsertions parted gathered ∧
      (inserted gathered).IsListing [(⟨"Dispel"⟩, [⟨"RTR"⟩, ⟨"ALA"⟩]), (⟨"Shock"⟩, [⟨"M19"⟩])] ∧
      (inserted parted).Collects parted ∧
      (inserted parted).solve true = (inserted gathered).solve true ∧
      solveListing [(⟨"Dispel"⟩, [⟨"RTR"⟩, ⟨"ALA"⟩]), (⟨"Shock"⟩, [⟨"M19"⟩])] true = (inserted parted).solve true := by
  have hsame : SameInsertions parted gathered := inserted_eq_iff.mp (by decide +kernel)
  obtain ⟨hcollects, hsolve⟩ := collects_inserted_and_solve_eq
  obtain ⟨hreport, hlistings⟩ := hsolve parted gathered hsame true
  exact ⟨hsame, isListing_gathered, hcollects parted, hreport, hlistings _ isListing_gathered⟩

end Candidates

end DeckLegality
