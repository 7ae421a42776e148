import DeckLegality.Proofs.Deck.Counts
import DeckLegality.Proofs.Pairing.Choice

/-!
# What candidates hold

Candidates come about by insertions, one after the other, as decklists do by additions.  What they hold in the end is
told by the order of the cards and by `Candidates.Offers`, which says what sets a card may be paired with.

* `names_ofList`: the cards are in the order in which they first came in.
* `offers_ofList`: a card may be paired with the sets of all its entries.
* `ofList_entries`: candidates are what their entries amount to.
* `ext_names_offers`: candidates are known by the order of their cards and by what they offer.
-/

namespace DeckLegality

namespace Candidates

/-- The card `n` may be paired with the set `code`. -/
def Offers (c : Candidates) (n : CardName) (code : SetCode) : Prop := ∃ codes, c.get? n = some codes ∧ code ∈ codes

theorem not_offers_empty (n : CardName) (code : SetCode) : ¬ empty.Offers n code := by
  rintro ⟨codes, hcodes, -⟩
  exact nomatch hcodes

theorem names_insert (c : Candidates) (n : CardName) (codes : SetCodes) :
    (c.insert n codes).names = if n ∈ c.names then c.names else c.names ++ [n] := by
  rw [names, entries_insert, FirstSeen.map_fst_upsert, ← names]

theorem offers_insert {c : Candidates} {n m : CardName} {codes : SetCodes} {code : SetCode} :
    (c.insert n codes).Offers m code ↔ c.Offers m code ∨ m = n ∧ code ∈ codes := by
  rw [Offers, get?_insert, Offers]
  by_cases h : m = n
  · subst h
    rw [if_pos rfl]
    cases c.get? m with
    | none => simp
    | some old => simp
  · simp [h]

/-! ## Many insertions -/

theorem names_foldl_insert (c : Candidates) (l : List (CardName × SetCodes)) :
    (l.foldl (fun c e => c.insert e.1 e.2) c).names = (c.names ++ l.map (·.1)).eraseDups := by
  induction l generalizing c with
  | nil =>
    show c.names = (c.names ++ []).eraseDups
    rw [List.append_nil, eraseDups_of_nodup c.nodup_names]
  | cons e l ih =>
    rw [List.foldl_cons, ih, names_insert, List.map_cons]
    by_cases hn : e.1 ∈ c.names
    · rw [if_pos hn, eraseDups_append_cons_of_mem hn]
    · rw [if_neg hn, List.append_assoc, List.singleton_append]

theorem offers_foldl_insert {c : Candidates} {l : List (CardName × SetCodes)} {n : CardName} {code : SetCode} :
    (l.foldl (fun c e => c.insert e.1 e.2) c).Offers n code ↔
      c.Offers n code ∨ ∃ e ∈ l, e.1 = n ∧ code ∈ e.2 := by
  induction l generalizing c with
  | nil => simp
  | cons e l ih => rw [List.foldl_cons, ih, offers_insert, List.exists_mem_cons_iff, or_assoc, eq_comm]

/-- The cards of a list of entries, each where it comes first. -/
theorem names_ofList (l : List (CardName × SetCodes)) : (ofList l).names = (l.map (·.1)).eraseDups :=
  names_foldl_insert empty l

/-- A card may be paired with the sets of all its entries. -/
theorem offers_ofList {l : List (CardName × SetCodes)} {n : CardName} {code : SetCode} :
    (ofList l).Offers n code ↔ ∃ e ∈ l, e.1 = n ∧ code ∈ e.2 :=
  offers_foldl_insert.trans (or_iff_right (not_offers_empty n code))

/-! ## Candidates by their entries -/

/-- Entries of cards that are not there yet go to the end as they are. -/
theorem entries_foldl_insert {c : Candidates} {l : List (CardName × SetCodes)}
    (h : ((c.entries ++ l).map (·.1)).Nodup) :
    (l.foldl (fun c e => c.insert e.1 e.2) c).entries = c.entries ++ l := by
  induction l generalizing c with
  | nil => exact (List.append_nil _).symm
  | cons e l ih =>
    have hentries : (c.insert e.1 e.2).entries = c.entries ++ [e] := by
      rw [entries_insert, FirstSeen.upsert_of_notMem (FirstSeen.notMem_of_nodup h)]
    rw [List.foldl_cons, ih, hentries, List.append_assoc, List.singleton_append]
    rwa [hentries, List.append_assoc]

/-- Candidate sets that are listed once for each card stay as they are. -/
theorem entries_ofList {l : List (CardName × SetCodes)} (h : (l.map (·.1)).Nodup) : (ofList l).entries = l :=
  entries_foldl_insert h

/-- The entries of candidates, put in one by one, give the candidates. -/
theorem ofList_entries (c : Candidates) : ofList c.entries = c := ext_entries (entries_ofList c.nodup)

/-! ## Candidates by their cards and sets -/

theorem mem_getD_get? {c : Candidates} {n : CardName} {code : SetCode} :
    code ∈ (c.get? n).getD ∅ ↔ c.Offers n code := by
  rw [Offers]
  cases c.get? n <;> simp

theorem entries_eq_map (c : Candidates) : c.entries = c.names.map fun n => (n, (c.get? n).getD ∅) := by
  rw [names, List.map_map]
  refine (List.map_id c.entries).symm.trans (List.map_congr_left fun e he => ?_)
  rw [Function.comp_apply, get?_eq_some_iff.mpr he, Option.getD_some, id]

/-- Candidates are known by the order of their cards and by what they offer. -/
theorem ext_names_offers {c d : Candidates} (hnames : c.names = d.names)
    (hoffers : ∀ n code, c.Offers n code ↔ d.Offers n code) : c = d := by
  refine ext_entries ?_
  rw [c.entries_eq_map, d.entries_eq_map, hnames]
  refine List.map_congr_left fun n _ => congrArg (Prod.mk n) (SortedSet.ext_mem fun code => ?_)
  rw [mem_getD_get?, mem_getD_get?, hoffers]

end Candidates

end DeckLegality
