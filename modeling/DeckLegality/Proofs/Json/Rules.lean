import DeckLegality.Json.Decks
import DeckLegality.Proofs.Json.Naturals
import DeckLegality.Proofs.Json.Records

/-!
# Stored rules are read back, whole or in part

The rules of a format are stored as an object with one member for each of them.  A member that is missing leaves the
default in its place, whatever the other members are and wherever they stand: what is left of stored rules is read as
`FormatRules.withOnly` says.  The exempt cards are a set, so the order in which they are written makes no difference.

* `field_of_mem`: one field, with its default.
* `ofJson?_of_subperm`: what is read from a part of stored rules.
* `ofJson?_render_of_perm`: all of them, in any order.
-/

namespace DeckLegality

open Json (nat record)
open Text (maxCount maxSize)

namespace Exemptions

/-- The exempt cards may be written in any order. -/
theorem ofJson?_of_perm {e : Exemptions} {exempt : List CardName} (h : exempt.Perm e.toList) :
    ofJson? (.array (exempt.map (·.toJson))) = some e := by
  have hlist : Json.list? CardName.ofJson? (.array (exempt.map (·.toJson))) = some (exempt.map id) :=
    Json.list?_array fun _ _ => rfl
  rw [ofJson?, hlist, List.map_id, Option.map_some, SortedSet.ofList_eq_of_perm h]

end Exemptions

namespace FormatRules

/-- The limit on copies and the sizes are such as can be written. -/
structure NumbersFit (r : FormatRules) : Prop where
  maxCards : r.maxCards ≤ maxCount
  minDeckSize : r.minDeckSize ≤ maxSize
  maxDeckSize : ∀ max, r.maxDeckSize = some max → max ≤ maxSize
  minSideboardSize : r.minSideboardSize ≤ maxSize
  maxSideboardSize : r.maxSideboardSize ≤ maxSize

/-- What is written for the limit on the main deck, if there is one. -/
def writeLimit : Option ℕ → Json
  | some max => nat max
  | none => .null

/-- The members of stored rules, with the exempt cards in the given order. -/
def members (r : FormatRules) (exempt : List CardName) : List (String × Json) :=
  [("max_cards", nat r.maxCards), ("min_deck_size", nat r.minDeckSize), ("max_deck_size", writeLimit r.maxDeckSize),
    ("min_sideboard_size", nat r.minSideboardSize), ("max_sideboard_size", nat r.maxSideboardSize),
    ("exemptions", .array (exempt.map (·.toJson)))]

/-- The default rules, except that those with one of the given keys are as in `r`. -/
def withOnly (r : FormatRules) (present : List String) : FormatRules where
  maxCards := if "max_cards" ∈ present then r.maxCards else ({} : FormatRules).maxCards
  minDeckSize := if "min_deck_size" ∈ present then r.minDeckSize else ({} : FormatRules).minDeckSize
  maxDeckSize := if "max_deck_size" ∈ present then r.maxDeckSize else ({} : FormatRules).maxDeckSize
  minSideboardSize :=
    if "min_sideboard_size" ∈ present then r.minSideboardSize else ({} : FormatRules).minSideboardSize
  maxSideboardSize :=
    if "max_sideboard_size" ∈ present then r.maxSideboardSize else ({} : FormatRules).maxSideboardSize
  exemptions := if "exemptions" ∈ present then r.exemptions else ({} : FormatRules).exemptions

variable {r : FormatRules} {exempt : List CardName}

theorem toJson_eq (r : FormatRules) : r.toJson = record (r.members r.exemptions.toList) := by
  obtain ⟨_, _, _ | _, _, _, _⟩ := r <;> rfl

theorem keys_members (r : FormatRules) (exempt : List CardName) : (r.members exempt).map (·.1) = keys := rfl

theorem nodup_keys_members (r : FormatRules) (exempt : List CardName) : ((r.members exempt).map (·.1)).Nodup :=
  keys_members r exempt ▸ (by decide : keys.Nodup)

/-- With all keys nothing is left of the default. -/
theorem withOnly_of_subset {present : List String} (h : keys ⊆ present) : r.withOnly present = r := by
  have hmem : ∀ key ∈ keys, key ∈ present := fun _ hkey => h hkey
  simp only [keys, List.forall_mem_cons] at hmem
  obtain ⟨hmax, hminDeck, hmaxDeck, hminSide, hmaxSide, hexempt, -⟩ := hmem
  simp only [withOnly, if_pos hmax, if_pos hminDeck, if_pos hmaxDeck, if_pos hminSide, if_pos hmaxSide, if_pos hexempt]

theorem nullable?_writeLimit {limit : Option ℕ} (h : ∀ max, limit = some max → max ≤ maxSize) :
    (writeLimit limit).nullable? Json.size? = some limit := by
  cases limit with
  | none => rfl
  | some max =>
    show (Json.size? (nat max)).map some = _
    rw [Json.size?, Json.natUpTo?_nat (h max rfl), Option.map_some]

/-- A field has the value that was written if its member is there, and else its default. -/
theorem field_of_mem {α : Type} {read : Json → Option α} {default value : α} {j : Json} (h : read j = some value)
    (key : String) (present : List String) :
    field read default (if key ∈ present then some j else none) = some (if key ∈ present then value else default) := by
  by_cases hkey : key ∈ present
  · rw [if_pos hkey, if_pos hkey]
    exact h
  · rw [if_neg hkey, if_neg hkey]
    rfl

/-- What is left of stored rules is read as the default rules with the fields that are there. -/
theorem ofJson?_of_subperm (hr : r.NumbersFit) (hexempt : exempt.Perm r.exemptions.toList)
    {kept : List (String × Json)} (hkept : kept.Subperm (r.members exempt)) :
    ofJson? (record kept) = some (r.withOnly (kept.map (·.1))) := by
  have hfields := Json.fields?_of_subperm (nodup_keys_members r exempt) hkept
  rw [keys_members] at hfields
  have hmaxCards : Json.count? (nat r.maxCards) = some r.maxCards := Json.natUpTo?_nat hr.maxCards
  have hminDeck : Json.size? (nat r.minDeckSize) = some r.minDeckSize := Json.natUpTo?_nat hr.minDeckSize
  have hmaxDeck := nullable?_writeLimit hr.maxDeckSize
  have hminSide : Json.size? (nat r.minSideboardSize) = some r.minSideboardSize :=
    Json.natUpTo?_nat hr.minSideboardSize
  have hmaxSide : Json.size? (nat r.maxSideboardSize) = some r.maxSideboardSize :=
    Json.natUpTo?_nat hr.maxSideboardSize
  have hexemptions := Exemptions.ofJson?_of_perm hexempt
  simp only [ofJson?, hfields, members, List.map_cons, List.map_nil, Option.bind_eq_bind, Option.bind_some,
    field_of_mem hmaxCards, field_of_mem hminDeck, field_of_mem hmaxDeck, field_of_mem hminSide, field_of_mem hmaxSide,
    field_of_mem hexemptions]
  rfl

/-- The members of stored rules are numbers, strings and arrays of them. -/
theorem isWellFormed_of_mem_members {m : String × Json} (hm : m ∈ r.members exempt) : m.2.IsWellFormed := by
  have hlimit : (writeLimit r.maxDeckSize).IsWellFormed := by
    cases r.maxDeckSize with
    | none => exact .null
    | some max => exact Json.isWellFormed_nat max
  have hexemptions : (Json.array (exempt.map (·.toJson))).IsWellFormed := .list fun _ _ => .string _
  have hall : ∀ m ∈ r.members exempt, m.2.IsWellFormed := by
    simp only [members, List.forall_mem_cons]
    exact ⟨Json.isWellFormed_nat _, Json.isWellFormed_nat _, hlimit, Json.isWellFormed_nat _, Json.isWellFormed_nat _,
      hexemptions, nofun⟩
  exact hall m hm

/-- The same for the text that is written for what is left. -/
theorem ofJson?_render_of_subperm (hr : r.NumbersFit) (hexempt : exempt.Perm r.exemptions.toList)
    {kept : List (String × Json)} (hkept : kept.Subperm (r.members exempt)) :
    (Json.ofText? (record kept).render).bind ofJson? = some (r.withOnly (kept.map (·.1))) := by
  have hwell : (record kept).IsWellFormed := .record fun _ hm => isWellFormed_of_mem_members (hkept.subset hm)
  rw [Json.ofText?_render_bind hwell]
  exact ofJson?_of_subperm hr hexempt hkept

/-- As long as no member is missing, their order makes no difference. -/
theorem ofJson?_render_of_perm (hr : r.NumbersFit) (hexempt : exempt.Perm r.exemptions.toList)
    {all : List (String × Json)} (hall : all.Perm (r.members exempt)) :
    (Json.ofText? (record all).render).bind ofJson? = some r := by
  have hkeys : keys ⊆ all.map (·.1) := keys_members r exempt ▸ (hall.map _).symm.subset
  rw [ofJson?_render_of_subperm hr hexempt hall.subperm, withOnly_of_subset hkeys]

/-- **Stored rules are read back, whole or in part.**  The text that is written for the rules of a format is read as the
same rules, whatever the order of the members and of the exempt cards.  If some members are missing and the others stand
in any order, it is read as the default rules with the fields of the others. -/
theorem read_of_subperm (r : FormatRules) (hr : r.NumbersFit) :
    r.toJson = record (r.members r.exemptions.toList) ∧
    (Json.ofText? r.toJson.render).bind ofJson? = some r ∧
    ∀ exempt : List CardName, exempt.Perm r.exemptions.toList →
      (∀ all, all.Perm (r.members exempt) → (Json.ofText? (record all).render).bind ofJson? = some r) ∧
      ∀ kept, kept.Subperm (r.members exempt) →
        (Json.ofText? (record kept).render).bind ofJson? = some (r.withOnly (kept.map (·.1))) := by
  refine ⟨toJson_eq r, ?_, fun exempt hexempt => ⟨fun all hall => ?_, fun kept hkept => ?_⟩⟩
  · rw [toJson_eq]
    exact ofJson?_render_of_perm hr (.refl _) (.refl _)
  · exact ofJson?_render_of_perm hr hexempt hall
  · exact ofJson?_render_of_subperm hr hexempt hkept

/-- Two members in another order, with the exempt cards in descending order. -/
theorem read_of_subperm_exemptions :
    ({ maxCards := maxCount, maxDeckSize := some maxSize, exemptions := .ofList [⟨""⟩, ⟨"Æther Vial"⟩] } :
      FormatRules).NumbersFit ∧
    (Json.ofText? "\x7b\"exemptions\":[\"Æther Vial\",\"\"],\"max_cards\":4294967295\x7d").bind ofJson? =
      some { maxCards := maxCount, exemptions := .ofList [⟨""⟩, ⟨"Æther Vial"⟩] } := by
  have hfit : ({ maxCards := maxCount, maxDeckSize := some maxSize, exemptions := .ofList [⟨""⟩, ⟨"Æther Vial"⟩] } :
      FormatRules).NumbersFit :=
    { maxCards := Nat.le_refl maxCount
      minDeckSize := by decide
      maxDeckSize := fun _ h => Nat.le_of_eq (Option.some.inj h).symm
      minSideboardSize := by decide
      maxSideboardSize := by decide }
  have hexempt : [⟨"Æther Vial"⟩, ⟨""⟩].Perm (SortedSet.ofList [⟨""⟩, (⟨"Æther Vial"⟩ : CardName)]).toList := by
    decide +kernel
  have hread := ((read_of_subperm _ hfit).2.2 _ hexempt).2
    [("exemptions", .array [Json.text "Æther Vial", Json.text ""]), ("max_cards", nat maxCount)]
    ⟨[("max_cards", nat maxCount), ("exemptions", .array [Json.text "Æther Vial", Json.text ""])], .swap .., ?_⟩
  · refine ⟨hfit, Eq.trans (congrArg (fun text => (Json.ofText? text).bind ofJson?) ?_) (hread.trans ?_)⟩
    · decide +kernel
    · decide +kernel
  · exact .cons_cons _ (.cons _ (.cons _ (.cons _ (.cons _ (.cons_cons _ .slnil)))))

end FormatRules

end DeckLegality
