import DeckLegality.Proofs.Deck.Counts
import DeckLegality.Proofs.Deck.Lines
import DeckLegality.Proofs.Text.FirstWord
import Mathlib.Data.List.TakeWhile

/-!
# What the text of a decklist describes

This module says what a text describes without going through its lines.  The lines that are not blank, without a
heading of the main deck at their start (`bodyLines`), are headings of the sideboard and lines with cards.  The cards
before the first heading of the sideboard (`maindeckLines`) make up the main deck, all others (`sideboardLines`) the
sideboard; nothing leads back to the main deck.

* `ReadsAs`: the card that can be read off a line.
* `DeckLine.ofLine_false_cases`: what a line may say, unless it is the first one.
* `Decklist.Holds`: what it takes of a decklist to hold the cards of some lines.
* `Submission.exists_ofText_eq_ok_iff`: the texts that describe a submission, and the submission that they describe.
-/

namespace DeckLegality

open Text (LowerCasing maxCount splitWord writtenLines)

/-! ## Lines of the main deck and of the sideboard -/

/-- The first word of the line has `name` in it, in lower case. -/
def IsHeading (lower : LowerCasing) (name : String) (line : List Char) : Prop :=
  name.toList <:+: lower (splitWord line).1

instance (lower : LowerCasing) (name : String) (line : List Char) : Decidable (IsHeading lower name line) :=
  inferInstanceAs (Decidable (_ <:+: _))

/-- The lines of a text that are not blank, without a heading of the main deck at their start. -/
def bodyLines (lower : LowerCasing) (text : String) : List (List Char) :=
  match writtenLines text.toList with
  | [] => []
  | line :: lines => if IsHeading lower "deck" line then lines else line :: lines

/-- The lines before the first heading of the sideboard. -/
def maindeckLines (lower : LowerCasing) (text : String) : List (List Char) :=
  (bodyLines lower text).takeWhile fun line => ¬ IsHeading lower "side" line

/-- The lines after the first heading of the sideboard, without any further headings of it. -/
def sideboardLines (lower : LowerCasing) (text : String) : List (List Char) :=
  ((bodyLines lower text).dropWhile fun line => ¬ IsHeading lower "side" line).filter
    fun line => ¬ IsHeading lower "side" line

/-- The line has a quantity as its first word, and what follows it is the name of a card. -/
def ReadsAs (line : List Char) (entry : CardName × ℕ) : Prop :=
  DeckLine.IsQuantity (splitWord line).1 entry.2 ∧ (splitWord line).2 ≠ [] ∧
    entry.1.text.toList = (splitWord line).2

theorem exists_readsAs_iff {line : List Char} :
    (∃ e, ReadsAs line e) ↔ (∃ k, DeckLine.IsQuantity (splitWord line).1 k) ∧ (splitWord line).2 ≠ [] := by
  constructor
  · rintro ⟨e, hk, hrest, -⟩
    exact ⟨⟨e.2, hk⟩, hrest⟩
  · rintro ⟨⟨k, hk⟩, hrest⟩
    exact ⟨(⟨String.ofList (splitWord line).2⟩, k), hk, hrest, String.toList_ofList⟩

/-- Headings of the sideboard apart, a line is part of the main deck or of the sideboard. -/
theorem maindeckLines_append_sideboardLines (lower : LowerCasing) (text : String) :
    maindeckLines lower text ++ sideboardLines lower text =
      (bodyLines lower text).filter fun line => ¬ IsHeading lower "side" line := by
  have hmain : (maindeckLines lower text).filter (fun line => ¬ IsHeading lower "side" line) =
      maindeckLines lower text :=
    List.filter_eq_self.mpr fun line hline =>
      List.mem_takeWhile_imp (p := fun line => ¬ IsHeading lower "side" line) hline
  rw [← hmain, sideboardLines, ← List.filter_append, maindeckLines, List.takeWhile_append_dropWhile]

/-! ## Lines after the first one -/

namespace DeckLine

variable {lower : LowerCasing} {line : List Char} {lines : List (List Char)}

theorem ofLine_false_of_isSideWord (hside : isSideWord (splitWord line).1 = true) :
    ofLine false line = sideHeading (String.ofList (splitWord line).1) := by
  simp only [ofLine, Bool.false_and, Bool.false_eq_true, if_false, if_pos hside]

theorem ofLine_false_of_quantity?_eq_none (hside : ¬ isSideWord (splitWord line).1 = true)
    (hquantity : quantity? (splitWord line).1 = none) :
    ofLine false line = unreadable (String.ofList (splitWord line).1) := by
  simp only [ofLine, Bool.false_and, Bool.false_eq_true, if_false, if_neg hside, hquantity]

theorem ofLine_false_of_quantity?_eq_some {copies : ℕ} (hside : ¬ isSideWord (splitWord line).1 = true)
    (hquantity : quantity? (splitWord line).1 = some copies) :
    ofLine false line =
      if (splitWord line).2.isEmpty then nameless else card copies ⟨String.ofList (splitWord line).2⟩ := by
  simp only [ofLine, Bool.false_and, Bool.false_eq_true, if_false, if_neg hside, hquantity]

/-- A line after the first one is a heading of the sideboard, or it has a card, or it is at fault. -/
theorem ofLine_false_cases (lower : LowerCasing) (line : List Char) :
    (IsHeading lower "side" line ∧ ∃ word, ofLine false line = sideHeading word) ∨
    (¬ IsHeading lower "side" line ∧
      ∃ copies name, ReadsAs line (name, copies) ∧ ofLine false line = card copies name) ∨
    (¬ IsHeading lower "side" line ∧ (∀ e, ¬ ReadsAs line e) ∧
      (ofLine false line = nameless ∨ ∃ word, ofLine false line = unreadable word)) := by
  by_cases hside : isSideWord (splitWord line).1 = true
  · exact .inl ⟨(isSideWord_iff lower).mp hside, _, ofLine_false_of_isSideWord hside⟩
  · have hheading : ¬ IsHeading lower "side" line := mt (isSideWord_iff lower).mpr hside
    refine .inr ?_
    cases hquantity : quantity? (splitWord line).1 with
    | none =>
      refine .inr ⟨hheading, fun e he => ?_, .inr ⟨_, ofLine_false_of_quantity?_eq_none hside hquantity⟩⟩
      have hk := quantity?_eq_some_iff.mpr he.1
      rw [hquantity] at hk
      exact absurd hk.symm (Option.some_ne_none _)
    | some copies =>
      have hline := ofLine_false_of_quantity?_eq_some hside hquantity
      by_cases hrest : (splitWord line).2 = []
      · rw [if_pos (List.isEmpty_iff.mpr hrest)] at hline
        exact .inr ⟨hheading, fun e he => he.2.1 hrest, .inl hline⟩
      · rw [if_neg (by rwa [List.isEmpty_iff])] at hline
        exact .inl ⟨hheading, copies, _, ⟨quantity?_eq_some_iff.mp hquantity, hrest, String.toList_ofList⟩, hline⟩

theorem isSideHeading_ofLine (lower : LowerCasing) (line : List Char) :
    (ofLine false line).isSideHeading = decide (IsHeading lower "side" line) := by
  rcases ofLine_false_cases lower line with
    ⟨h, word, hline⟩ | ⟨h, copies, name, -, hline⟩ | ⟨h, -, hline | ⟨word, hline⟩⟩
  · rw [hline, decide_eq_true h]
    rfl
  all_goals
    rw [hline, decide_eq_false h]
    rfl

/-- A heading of the sideboard is not at fault, and any other line is not if a card can be read off it. -/
theorem isFault_ofLine (lower : LowerCasing) (line : List Char) :
    (ofLine false line).isFault = false ↔ (¬ IsHeading lower "side" line → ∃ e, ReadsAs line e) := by
  rcases ofLine_false_cases lower line with
    ⟨h, word, hline⟩ | ⟨-, copies, name, hreads, hline⟩ | ⟨h, hnone, hline | ⟨word, hline⟩⟩
  · rw [hline]
    exact iff_of_true rfl fun hnot => absurd h hnot
  · rw [hline]
    exact iff_of_true rfl fun _ => ⟨_, hreads⟩
  all_goals
    rw [hline]
    refine iff_of_false (fun hf => Bool.noConfusion hf) fun hreads => ?_
    obtain ⟨e, he⟩ := hreads h
    exact hnone e he

/-- The cards of lines that are not headings are those that can be read off them. -/
theorem forall₂_readsAs (hlines : ∀ line ∈ lines, ¬ IsHeading lower "side" line)
    (hreads : ∀ line ∈ lines, ∃ e, ReadsAs line e) :
    List.Forall₂ ReadsAs lines (lines.filterMap (card? ∘ ofLine false)) := by
  induction lines with
  | nil => exact .nil
  | cons line lines ih =>
    obtain ⟨hline, hlines⟩ := List.forall_mem_cons.mp hlines
    obtain ⟨⟨e, he⟩, hreads⟩ := List.forall_mem_cons.mp hreads
    rcases ofLine_false_cases lower line with ⟨h, -⟩ | ⟨-, copies, name, hread, heq⟩ | ⟨-, hnone, -⟩
    · exact absurd h hline
    · have hcard : (card? ∘ ofLine false) line = some (name, copies) := by
        rw [Function.comp_apply, heq]
        rfl
      rw [List.filterMap_cons_some hcard]
      exact .cons hread (ih hlines hreads)
    · exact absurd he (hnone e)

/-! ## The lines of a text, together -/

theorem not_isSideHeading_comp_ofLine (lower : LowerCasing) :
    (fun line : DeckLine => !line.isSideHeading) ∘ ofLine false =
      fun line => decide (¬ IsHeading lower "side" line) := by
  funext line
  rw [Function.comp_apply, isSideHeading_ofLine lower, decide_not]

theorem mainEntries_map (lower : LowerCasing) (lines : List (List Char)) :
    mainEntries (lines.map (ofLine false)) =
      (lines.takeWhile fun line => ¬ IsHeading lower "side" line).filterMap (card? ∘ ofLine false) := by
  rw [mainEntries, List.takeWhile_map, List.filterMap_map, not_isSideHeading_comp_ofLine]

theorem sideEntries_map (lower : LowerCasing) (lines : List (List Char)) :
    sideEntries (lines.map (ofLine false)) =
      ((lines.dropWhile fun line => ¬ IsHeading lower "side" line).filter
        fun line => ¬ IsHeading lower "side" line).filterMap (card? ∘ ofLine false) := by
  rw [sideEntries, List.dropWhile_map, List.filterMap_map, not_isSideHeading_comp_ofLine, List.filterMap_filter]
  -- a further heading has no card
  refine List.filterMap_congr fun line _ => ?_
  rcases ofLine_false_cases lower line with ⟨h, word, hline⟩ | ⟨h, -⟩ | ⟨h, -⟩
  · rw [Function.comp_apply, hline, if_neg (by rwa [decide_eq_true_eq, not_not])]
    rfl
  · rw [if_pos (decide_eq_true h)]
  · rw [if_pos (decide_eq_true h)]

/-- A heading of the main deck stands at the start, if anywhere. -/
theorem ofLines_writtenLines (lower : LowerCasing) (text : String) :
    ofLines true (writtenLines text.toList) = (bodyLines lower text).map (ofLine false) ∨
      ∃ word, ofLines true (writtenLines text.toList) =
        deckHeading word :: (bodyLines lower text).map (ofLine false) := by
  unfold bodyLines
  cases writtenLines text.toList with
  | nil => exact .inl rfl
  | cons line lines =>
    by_cases h : isDeckWord (splitWord line).1 = true
    · have hline : ofLine true line = deckHeading (String.ofList (splitWord line).1) := if_pos h
      have hheading : IsHeading lower "deck" line := (isDeckWord_iff lower).mp h
      refine .inr ⟨String.ofList (splitWord line).1, ?_⟩
      rw [ofLines, hline, ofLines_false]
      simp only [if_pos hheading]
    · have hline : ofLine true line = ofLine false line := if_neg h
      have hheading : ¬ IsHeading lower "deck" line := mt (isDeckWord_iff lower).mpr h
      left
      rw [ofLines, hline, ofLines_false]
      simp only [if_neg hheading, List.map_cons]

/-- No line of a text is at fault if a card can be read off every line that is not a heading. -/
theorem forall_isFault_iff (lower : LowerCasing) (text : String) :
    (∀ line ∈ (bodyLines lower text).map (ofLine false), line.isFault = false) ↔
      ∀ line ∈ maindeckLines lower text ++ sideboardLines lower text, ∃ e, ReadsAs line e := by
  rw [maindeckLines_append_sideboardLines, List.forall_mem_map]
  simp only [isFault_ofLine lower, List.mem_filter, decide_eq_true_eq, and_imp]

end DeckLine

/-! ## The submission of a text -/

/-- The decklist holds the cards of a list of entries: of every card as many copies as the entries have together, unless
that is more than a count can be, and the cards in the order in which they first have a copy. -/
structure Decklist.Holds (d : Decklist) (l : List (CardName × ℕ)) : Prop where
  count_eq (n : CardName) : d.count n = min (copiesIn n l) maxCount
  notMem_names (n : CardName) : copiesIn n l = 0 → n ∉ d.names
  names_eq : d.names = cardsIn l

theorem Decklist.holds_ofList (l : List (CardName × ℕ)) : (ofList l).Holds l where
  count_eq := count_ofList l
  notMem_names n hn := by
    rw [names_ofList, mem_cardsIn, hn]
    exact Nat.lt_irrefl 0
  names_eq := names_ofList l

namespace Submission

open DeckLine (card? ofLine)

theorem ofText_eq_ok_iff {s : Submission} (lower : LowerCasing) (text : String) :
    ofText text = .ok s ↔
      (∀ line ∈ maindeckLines lower text ++ sideboardLines lower text, ∃ e, ReadsAs line e) ∧
      s = ⟨.ofList ((maindeckLines lower text).filterMap (card? ∘ ofLine false)),
        .ofList ((sideboardLines lower text).filterMap (card? ∘ ofLine false))⟩ := by
  rw [← DeckLine.forall_isFault_iff, maindeckLines, sideboardLines, ← DeckLine.mainEntries_map,
    ← DeckLine.sideEntries_map, ofText, assemble_eq_ok_iff, map_snd_numberedLines]
  rcases DeckLine.ofLines_writtenLines lower text with h | ⟨word, h⟩
  · rw [h]
    rfl
  · rw [h, List.forall_mem_cons, and_iff_right (show (DeckLine.deckHeading word).isFault = false from rfl),
      DeckLine.mainEntries_deckHeading, DeckLine.sideEntries_deckHeading]
    rfl

/-- **What the text of a decklist describes.**  There is a submission exactly if every line that is neither blank nor a
heading has a quantity as its first word and something after it.  The main deck then holds the cards of the lines
before the first heading of the sideboard, and the sideboard those of all later lines. -/
theorem exists_ofText_eq_ok_iff (lower : LowerCasing) (text : String) :
    ((∃ s, ofText text = .ok s) ↔
      ∀ line ∈ maindeckLines lower text ++ sideboardLines lower text,
        (∃ k, DeckLine.IsQuantity (splitWord line).1 k) ∧ (splitWord line).2 ≠ []) ∧
    ∀ s, ofText text = .ok s → ∃ main side : List (CardName × ℕ),
      List.Forall₂ ReadsAs (maindeckLines lower text) main ∧
      List.Forall₂ ReadsAs (sideboardLines lower text) side ∧
      s.maindeck.Holds main ∧ s.sideboard.Holds side := by
  have hplain : ∀ line ∈ maindeckLines lower text ++ sideboardLines lower text, ¬ IsHeading lower "side" line := by
    intro line hline
    rw [maindeckLines_append_sideboardLines, List.mem_filter, decide_eq_true_eq] at hline
    exact hline.2
  simp only [ofText_eq_ok_iff lower, ← exists_readsAs_iff]
  refine ⟨⟨fun ⟨s, h, _⟩ => h, fun h => ⟨_, h, rfl⟩⟩, ?_⟩
  rintro s ⟨hreads, rfl⟩
  obtain ⟨hmain, hside⟩ := List.forall_mem_append.mp hreads
  obtain ⟨hmain', hside'⟩ := List.forall_mem_append.mp hplain
  exact ⟨_, _, DeckLine.forall₂_readsAs hmain' hmain, DeckLine.forall₂_readsAs hside' hside,
    Decklist.holds_ofList _, Decklist.holds_ofList _⟩

/-- A text with headings of both decks, blanks in many places, and more copies of a card than a count can be. -/
def crowdedText : String :=
  " Maindeck:\n4000000000x Island\r\n0 Swamp\n\n+4000000000 \t Island\n2 Fire // Ice\nSIDEBOARD\n1X Swamp\n"
    ++ "side 2\n3 Island"

/-- The submission that it describes. -/
def crowded : Submission :=
  ⟨.ofList [(⟨"Island"⟩, maxCount), (⟨"Fire // Ice"⟩, 2)], .ofList [(⟨"Swamp"⟩, 1), (⟨"Island"⟩, 3)]⟩

theorem exists_ofText_eq_ok_iff_crowded :
    ofText crowdedText = .ok crowded ∧ ∃ main side : List (CardName × ℕ),
      List.Forall₂ ReadsAs (maindeckLines default crowdedText) main ∧
      List.Forall₂ ReadsAs (sideboardLines default crowdedText) side ∧
      crowded.maindeck.Holds main ∧ crowded.sideboard.Holds side := by
  have htext : ofText crowdedText = .ok crowded := by decide +kernel
  exact ⟨htext, (exists_ofText_eq_ok_iff default crowdedText).2 crowded htext⟩

end Submission

end DeckLegality
