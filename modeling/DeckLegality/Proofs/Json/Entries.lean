import DeckLegality.Proofs.Deck.Merging
import DeckLegality.Proofs.Json.Decoded
import DeckLegality.Proofs.Json.Naturals

/-!
# Collections that keep their order

Decklists and candidates are stored as arrays of their entries.  Reading such an array puts the collection together anew,
entry by entry, which merges the entries of one card and drops those without copies.  So reading is not the inverse of
writing on every array; but a collection names no card twice and a decklist has copies of all its cards, and so there is
nothing to merge or drop in what was written.

The sets of a card have no order, so they may be written in any (`Candidates.IsListing`).

* `Decklist.ofJson?_toJson`, `Candidates.IsListing.ofJson?_writeListing`: what was written is read back.
* `Json.keepsEntries_collections`: the same for texts, and what any other text is read as.
-/

namespace DeckLegality

open Json (Lists)

/-! ## Reading what was written -/

/-- Values of a kind are stored by their entries, in order: what is written for a value, in whatever way, is read back;
what any text is read as comes about from the entries that are listed in it; and a value that was read may be written and
read once more without a change. -/
structure Json.KeepsEntries {α β : Type} (read : Json → Option α) (Writes : α → Json → Prop) (IsEntry : Json → β → Prop)
    (build : List β → α) : Prop where
  read_written : ∀ a j, Writes a j → (Json.ofText? j.render).bind read = some a
  read_iff : ∀ text a, (Json.ofText? text).bind read = some a ↔
    ∃ j l, Json.ofText? text = some j ∧ Lists IsEntry j l ∧ build l = a
  read_again : ∀ text a, (Json.ofText? text).bind read = some a →
    ∀ j, Writes a j → (Json.ofText? j.render).bind read = (Json.ofText? text).bind read

/-- It is enough to look at trees. -/
theorem Json.KeepsEntries.of_trees {α β : Type} {read : Json → Option α} {Writes : α → Json → Prop}
    {IsEntry : Json → β → Prop} {build : List β → α} (hwell : ∀ a j, Writes a j → j.IsWellFormed)
    (hwrite : ∀ a j, Writes a j → read j = some a)
    (hread : ∀ j a, read j = some a ↔ ∃ l, Lists IsEntry j l ∧ build l = a) :
    Json.KeepsEntries read Writes IsEntry build := by
  have hwritten : ∀ a j, Writes a j → (Json.ofText? j.render).bind read = some a := fun a j h =>
    (Json.ofText?_render_bind (hwell a j h) read).trans (hwrite a j h)
  refine ⟨hwritten, fun text a => ?_, fun text a ha j h => (hwritten a j h).trans ha.symm⟩
  rw [Option.bind_eq_some_iff]
  refine exists_congr fun j => ?_
  rw [hread, ← exists_and_left]

/-! ## Decklists -/

namespace Decklist

theorem isWellFormed_toJson (d : Decklist) : d.toJson.IsWellFormed :=
  .list fun e _ => .pair (.string _) (Json.isWellFormed_nat e.2)

/-- The array that is written for a decklist lists its entries. -/
theorem lists_toJson (d : Decklist) : Lists IsEntry d.toJson d.entries := by
  refine ⟨_, rfl, List.forall₂_map_left_iff.mpr (List.forall₂_same.mpr fun e he => ?_)⟩
  exact ⟨Numeral.ofNat e.2, rfl, Numeral.nat?_ofNat e.2, (d.counts e he).2⟩

theorem ofJson?_toJson (d : Decklist) : ofJson? d.toJson = some d :=
  ofJson?_eq_some_iff.mpr ⟨d.entries, d.lists_toJson, d.ofList_entries⟩

end Decklist

/-! ## Candidates -/

namespace Candidates

/-- The array of a list of entries, each with its sets in the order of the list. -/
def writeListing (l : List (CardName × List SetCode)) : Json :=
  .array (l.map fun e => .array [e.1.toJson, .array (e.2.map SetCode.toJson)])

/-- The list has the cards of the candidates in their order, and the sets of each card in some order. -/
def IsListing (c : Candidates) (l : List (CardName × List SetCode)) : Prop :=
  List.Forall₂ (fun a e => a.1 = e.1 ∧ a.2.Perm e.2.toList) l c.entries

variable {c : Candidates} {l : List (CardName × List SetCode)}

/-- The ascending order of the sets is one of the orders. -/
theorem isListing_ascending (c : Candidates) : c.IsListing (c.entries.map fun e => (e.1, e.2.toList)) :=
  List.forall₂_map_left_iff.mpr (List.forall₂_same.mpr fun _ _ => ⟨rfl, .rfl⟩)

theorem toJson_eq_writeListing (c : Candidates) : c.toJson = writeListing (c.entries.map fun e => (e.1, e.2.toList)) := by
  rw [writeListing, List.map_map]
  rfl

theorem isWellFormed_writeListing (l : List (CardName × List SetCode)) : (writeListing l).IsWellFormed :=
  .list fun _ _ => .pair (.string _) (.list fun _ _ => .string _)

/-- The array that is written for candidates lists their entries, in whatever order the sets are. -/
theorem IsListing.lists (h : c.IsListing l) : Lists IsEntry (writeListing l) c.entries := by
  refine ⟨_, rfl, List.forall₂_map_left_iff.mpr (h.imp fun a e hae => ?_)⟩
  obtain ⟨hcard, hcodes⟩ := hae
  exact ⟨a.2, by rw [hcard], SortedSet.ofList_eq_of_perm hcodes⟩

theorem IsListing.ofJson?_writeListing (h : c.IsListing l) : ofJson? (writeListing l) = some c :=
  ofJson?_eq_some_iff.mpr ⟨c.entries, h.lists, c.ofList_entries⟩

end Candidates

/-! ## Texts -/

/-- **Decklists and candidates keep their order when they are stored.**  What is written for one of them is read back with
the same entries in the same order, whatever the order in which the sets of a card are written.  Any text is read as what
comes about by adding, or putting in, the entries that it lists, one after the other and with their names as they stand:
also if it names a card several times, or with no copies, or with blanks around the name.  If that is written, it is read
as the same again. -/
theorem Json.keepsEntries_collections :
    Json.KeepsEntries Decklist.ofJson? (fun d j => j = d.toJson) Decklist.IsEntry
      (fun l => l.foldl (fun d e => d.add e.1 e.2) .empty) ∧
    Json.KeepsEntries Candidates.ofJson? (fun c j => ∃ l, c.IsListing l ∧ j = Candidates.writeListing l)
      Candidates.IsEntry (fun l => l.foldl (fun c e => c.insert e.1 e.2) .empty) ∧
    ∀ c : Candidates, ∃ l, c.IsListing l ∧ c.toJson = Candidates.writeListing l := by
  refine ⟨.of_trees ?_ ?_ fun _ _ => Decklist.ofJson?_eq_some_iff,
    .of_trees ?_ ?_ fun _ _ => Candidates.ofJson?_eq_some_iff,
    fun c => ⟨_, c.isListing_ascending, c.toJson_eq_writeListing⟩⟩
  · rintro d _ rfl
    exact d.isWellFormed_toJson
  · rintro d _ rfl
    exact d.ofJson?_toJson
  · rintro c _ ⟨l, -, rfl⟩
    exact Candidates.isWellFormed_writeListing l
  · rintro c _ ⟨l, hl, rfl⟩
    exact hl.ofJson?_writeListing

/-- A card that is named twice, with a blank before its name, and one without copies; and sets in descending order. -/
theorem Json.keepsEntries_collections_dispel :
    (Json.ofText? "[[\" Dispel\", 2],[\"Shock\",0],[\" Dispel\",3] ]").bind Decklist.ofJson? =
      some (.ofList [(⟨" Dispel"⟩, 5)]) ∧
    (Json.ofText? (Decklist.ofList [(⟨" Dispel"⟩, 5)]).toJson.render).bind Decklist.ofJson? =
      (Json.ofText? "[[\" Dispel\", 2],[\"Shock\",0],[\" Dispel\",3] ]").bind Decklist.ofJson? ∧
    (Candidates.ofList [(⟨"Shock"⟩, .ofList [⟨"M19"⟩, ⟨"RTR"⟩])]).IsListing [(⟨"Shock"⟩, [⟨"RTR"⟩, ⟨"M19"⟩])] ∧
    (Json.ofText? (Candidates.writeListing [(⟨"Shock"⟩, [⟨"RTR"⟩, ⟨"M19"⟩])]).render).bind Candidates.ofJson? =
      some (.ofList [(⟨"Shock"⟩, .ofList [⟨"M19"⟩, ⟨"RTR"⟩])]) := by
  obtain ⟨hdecks, hcandidates, -⟩ := keepsEntries_collections
  have hread : (Json.ofText? "[[\" Dispel\", 2],[\"Shock\",0],[\" Dispel\",3] ]").bind Decklist.ofJson? =
      some (.ofList [(⟨" Dispel"⟩, 5)]) := by decide +kernel
  have hlisting : (Candidates.ofList [(⟨"Shock"⟩, .ofList [⟨"M19"⟩, ⟨"RTR"⟩])]).IsListing
      [(⟨"Shock"⟩, [⟨"RTR"⟩, ⟨"M19"⟩])] := .cons ⟨rfl, by decide +kernel⟩ .nil
  exact ⟨hread, hdecks.read_again _ _ hread _ rfl, hlisting, hcandidates.read_written _ _ ⟨_, hlisting, rfl⟩⟩

end DeckLegality
