import DeckLegality.Json.Decks
import DeckLegality.Json.Verdicts
import DeckLegality.Proofs.Json.Parts

/-!
# What violations and verdicts are read from

A violation is a record with a tag that tells its kind, and a verdict is one with a tag that tells its status; next to the
tag stand the fields that go with it (`HasBody`).  A violation that stands alone has the name of its kind, and one inside a
verdict may have its number instead (`Violation.IsItem`).  `IsReadFrom` says what a tree must look like for a violation or a
verdict to be read from it, and the readers find exactly that.

* `Violation.ofFields?_eq_some_iff`: the fields of each kind.
* `Violation.ofJson?_eq_some_iff`, `Violation.ofItem?_eq_some_iff`: violations, alone and inside a verdict.
* `Verdict.ofJson?_eq_some_iff`: verdicts.
-/

namespace DeckLegality

open Json (HasFields IsNat IsTagged Lists)
open Text (maxCount maxSize)

/-! ## Violations -/

namespace Violation

/-- The name of the kind. -/
def kindName : Violation → String
  | deckTooSmall _ => "deck_too_small"
  | deckTooLarge _ => "deck_too_large"
  | sideboardTooSmall _ => "sideboard_too_small"
  | sideboardTooLarge _ => "sideboard_too_large"
  | tooManyCopies _ _ => "too_many_copies"
  | notLegal _ => "not_legal"

/-- The number of the kind. -/
def kind : Violation → ℕ
  | deckTooSmall _ => 0
  | deckTooLarge _ => 1
  | sideboardTooSmall _ => 2
  | sideboardTooLarge _ => 3
  | tooManyCopies _ _ => 4
  | notLegal _ => 5

/-- The record has one field, which is a size. -/
def HasSize (key : String) (size : ℕ) (body : Json) : Prop :=
  ∃ v, HasFields [(key, v)] body ∧ IsNat size v ∧ size ≤ maxSize

/-- The record has the fields that go with the kind: the size or the limit, which is not too large, and the card, whose name
is the string as it stands. -/
def HasBody (body : Json) : Violation → Prop
  | deckTooSmall size | sideboardTooSmall size => HasSize "min" size body
  | deckTooLarge size | sideboardTooLarge size => HasSize "max" size body
  | tooManyCopies card max =>
    ∃ v, HasFields [("card", Json.text card.text), ("max", v)] body ∧ IsNat max v ∧ max ≤ maxCount
  | notLegal card => HasFields [("card", Json.text card.text)] body

variable {w : Violation} {j tag body : Json}

theorem size_eq_some_iff {key : String} {make : ℕ → Violation} :
    (do
      let [v] ← body.allFields? [key] | none
      make <$> v.size?) = some w ↔ ∃ size, make size = w ∧ HasSize key size body := by
  refine Json.bind_allFields?_one.trans ?_
  constructor
  · rintro ⟨v, hv, h⟩
    obtain ⟨size, hsize, rfl⟩ := Option.map_eq_some_iff.mp h
    exact ⟨size, rfl, v, hv, Json.natUpTo?_eq_some_iff.mp hsize⟩
  · rintro ⟨size, rfl, v, hv, hsize⟩
    exact ⟨v, hv, Option.map_eq_some_iff.mpr ⟨size, Json.natUpTo?_eq_some_iff.mpr hsize, rfl⟩⟩

/-- A kind and its fields make up the violation. -/
theorem ofFields?_eq_some_iff {k : ℕ} : ofFields? k body = some w ↔ k = w.kind ∧ w.HasBody body := by
  constructor
  · intro h
    -- the first four kinds have a size and nothing else
    unfold ofFields? at h
    split at h
    · obtain ⟨size, rfl, hsize⟩ := size_eq_some_iff.mp h
      exact ⟨rfl, hsize⟩
    · obtain ⟨size, rfl, hsize⟩ := size_eq_some_iff.mp h
      exact ⟨rfl, hsize⟩
    · obtain ⟨size, rfl, hsize⟩ := size_eq_some_iff.mp h
      exact ⟨rfl, hsize⟩
    · obtain ⟨size, rfl, hsize⟩ := size_eq_some_iff.mp h
      exact ⟨rfl, hsize⟩
    · obtain ⟨card, v, hfields, h⟩ := Json.bind_allFields?_two.mp h
      obtain ⟨name, hname, h⟩ := Option.bind_eq_some_iff.mp h
      obtain ⟨max, hmax, h⟩ := Option.bind_eq_some_iff.mp h
      obtain rfl := Option.some.inj h
      obtain rfl := Json.text?_eq_some_iff.mp hname
      exact ⟨rfl, v, hfields, Json.natUpTo?_eq_some_iff.mp hmax⟩
    · obtain ⟨card, hfields, h⟩ := Json.bind_allFields?_one.mp h
      obtain ⟨name, hname, h⟩ := Option.bind_eq_some_iff.mp h
      obtain rfl := Option.some.inj h
      obtain rfl := Json.text?_eq_some_iff.mp hname
      exact ⟨rfl, hfields⟩
    · exact nomatch h
  · rintro ⟨rfl, h⟩
    cases w with
    | deckTooSmall size => exact size_eq_some_iff.mpr ⟨size, rfl, h⟩
    | deckTooLarge size => exact size_eq_some_iff.mpr ⟨size, rfl, h⟩
    | sideboardTooSmall size => exact size_eq_some_iff.mpr ⟨size, rfl, h⟩
    | sideboardTooLarge size => exact size_eq_some_iff.mpr ⟨size, rfl, h⟩
    | tooManyCopies card max =>
      obtain ⟨v, hfields, hmax⟩ := h
      refine Json.bind_allFields?_two.mpr ⟨_, v, hfields, ?_⟩
      have hcount : v.count? = some max := Json.natUpTo?_eq_some_iff.mpr hmax
      rw [hcount]
      rfl
    | notLegal card => exact Json.bind_allFields?_one.mpr ⟨_, h, rfl⟩

/-- The kind is given by its name. -/
theorem kindByName?_eq_some_iff : kindByName? tag = some w.kind ↔ tag = Json.text w.kindName := by
  rw [kindByName?, Option.bind_eq_bind, Option.bind_eq_some_iff]
  constructor
  · rintro ⟨name, hname, hidx⟩
    obtain ⟨hlt, hbeq, -⟩ := List.findIdx?_eq_some_iff_getElem.mp hidx
    have hname' : kinds[w.kind] = name := eq_of_beq hbeq
    have hkind : kinds[w.kind] = w.kindName := by cases w <;> rfl
    rw [Json.text?_eq_some_iff.mp hname, ← hname', hkind]
  · rintro rfl
    exact ⟨_, rfl, by cases w <;> rfl⟩

/-- The kind is given by its name or by its number. -/
theorem kind?_eq_some_iff : kind? tag = some w.kind ↔ tag = Json.text w.kindName ∨ IsNat w.kind tag := by
  have hle : w.kind ≤ maxSize := by cases w <;> exact of_decide_eq_true rfl
  have hnumber : tag.size? = some w.kind ↔ IsNat w.kind tag :=
    Json.natUpTo?_eq_some_iff.trans (and_iff_left hle)
  rw [← kindByName?_eq_some_iff, ← hnumber, kind?]
  -- a string is not read as a number, and nothing but a string is read as a name
  cases tag with
  | string name =>
    show (kindByName? (.string name) <|> none) = _ ↔ _ ∨ none = _
    simp
  | _ =>
    show (none <|> _) = _ ↔ none = _ ∨ _
    simp

/-! ### The whole record -/

/-- The tree of a violation that stands alone: its kind is given by its name, and the whole record can be kept until the kind
is known. -/
def IsReadFrom (w : Violation) (j : Json) : Prop :=
  j.canBeKept = true ∧ ∃ body, IsTagged "type" (Json.text w.kindName) j body ∧ w.HasBody body

/-- The tree of a violation inside a verdict: its kind is given by its name or by its number. -/
def IsItem (j : Json) (w : Violation) : Prop :=
  ∃ tag body, IsTagged "type" tag j body ∧ (tag = Json.text w.kindName ∨ IsNat w.kind tag) ∧ w.HasBody body

/-- To read a kind and then its fields is to find both. -/
theorem bind_ofFields?_eq_some_iff {found : Option ℕ} :
    (found.bind fun k => ofFields? k body) = some w ↔ found = some w.kind ∧ w.HasBody body := by
  rw [Option.bind_eq_some_iff]
  constructor
  · rintro ⟨k, hfound, h⟩
    obtain ⟨rfl, hbody⟩ := ofFields?_eq_some_iff.mp h
    exact ⟨hfound, hbody⟩
  · rintro ⟨hfound, hbody⟩
    exact ⟨w.kind, hfound, ofFields?_eq_some_iff.mpr ⟨rfl, hbody⟩⟩

theorem ofItem?_eq_some_iff : ofItem? j = some w ↔ IsItem j w := by
  refine Json.bind_tagged?.trans (exists₂_congr fun tag body => and_congr_right fun _ => ?_)
  rw [← kind?_eq_some_iff]
  exact bind_ofFields?_eq_some_iff

theorem ofJson?_eq_some_iff : ofJson? j = some w ↔ w.IsReadFrom j := by
  unfold ofJson? IsReadFrom
  cases hkept : j.canBeKept with
  | false => simp
  | true =>
    refine Json.bind_tagged?.trans ?_
    simp only [true_and]
    constructor
    · rintro ⟨tag, body, htagged, h⟩
      obtain ⟨hkind, hbody⟩ := bind_ofFields?_eq_some_iff.mp h
      obtain rfl := kindByName?_eq_some_iff.mp hkind
      exact ⟨body, htagged, hbody⟩
    · rintro ⟨body, htagged, hbody⟩
      exact ⟨_, body, htagged, bind_ofFields?_eq_some_iff.mpr ⟨kindByName?_eq_some_iff.mpr rfl, hbody⟩⟩

end Violation

/-! ## Verdicts -/

namespace Verdict

/-- The name of the status. -/
def statusName : Verdict → String
  | valid => "valid"
  | invalid _ => "invalid"

/-- The record has the fields that go with the status.  Next to `valid` an object may hold anything and an array nothing;
next to `invalid` the violations are listed, one item for each of them. -/
def HasBody (body : Json) : Verdict → Prop
  | valid => ∀ items, body = .array items → items = []
  | invalid violations => ∃ v, HasFields [("violations", v)] body ∧ Lists Violation.IsItem v violations

/-- The tree of a verdict, which can be kept until the status is known. -/
def IsReadFrom (v : Verdict) (j : Json) : Prop :=
  j.canBeKept = true ∧ ∃ body, IsTagged "status" (Json.text v.statusName) j body ∧ v.HasBody body

variable {v : Verdict} {j : Json}

theorem list?_ofItem?_eq_some_iff {violations : List Violation} :
    j.list? Violation.ofItem? = some violations ↔ Lists Violation.IsItem j violations :=
  Json.list?_eq_some_iff.trans (Json.Lists.congr fun _ _ => Violation.ofItem?_eq_some_iff)

theorem ofJson?_eq_some_iff : ofJson? j = some v ↔ v.IsReadFrom j := by
  unfold ofJson? IsReadFrom
  cases hkept : j.canBeKept with
  | false => simp
  | true =>
    refine Json.bind_tagged?.trans ?_
    simp only [true_and]
    constructor
    · rintro ⟨tag, body, htagged, h⟩
      obtain ⟨status, hstatus, h⟩ := Option.bind_eq_some_iff.mp h
      rw [Json.text?_eq_some_iff.mp hstatus] at htagged
      split at h
      · exact nomatch h
      · next hitems =>
        obtain rfl := Option.some.inj h
        refine ⟨_, htagged, fun items heq => ?_⟩
        cases items with
        | nil => rfl
        | cons item items => exact absurd heq (hitems item items)
      · obtain ⟨field, hfield, h⟩ := Json.bind_allFields?_one.mp h
        obtain ⟨violations, hlist, rfl⟩ := Option.map_eq_some_iff.mp h
        exact ⟨_, htagged, field, hfield, list?_ofItem?_eq_some_iff.mp hlist⟩
      · exact nomatch h
    · rintro ⟨body, htagged, hbody⟩
      refine ⟨_, body, htagged, ?_⟩
      cases v with
      | valid =>
        cases body with
        | array items =>
          obtain rfl := hbody items rfl
          rfl
        | _ => rfl
      | invalid violations =>
        obtain ⟨field, hfield, hlist⟩ := hbody
        refine Json.bind_allFields?_one.mpr ⟨field, hfield, ?_⟩
        rw [list?_ofItem?_eq_some_iff.mpr hlist]
        rfl

end Verdict

end DeckLegality
