import DeckLegality.DecklistText
import Mathlib.Data.List.Basic

/-!
# The lines of a decklist's text, one after the other

Reading goes through the lines of a text and remembers two things: whether a line has said anything yet, and whether
the sideboard has begun.  Here both are taken out of the walk.  What the lines say is a list (`map_snd_numberedLines`),
and what becomes of them is a submission whose decklists are sums over two parts of that list (`assemble_eq_ok_iff`).

* `Text.splitOn_eq_lines`, `Text.filter_map_trim_lines`: the lines of a text, and those that are not blank.
* `map_snd_numberedLines`: what they say, each by itself.
* `Submission.assemble_eq_ok_iff`: the submission that comes of it, if there is one.
-/

namespace DeckLegality

open Text (trim)

/-! ## Lines -/

namespace Text

/-- The lines of a text that are not blank, without the blanks at their ends.  Only a line feed ends a line. -/
def writtenLines (text : List Char) : List (List Char) := ((text.splitOn '\n').map trim).filter (!·.isEmpty)

/-- A line feed ends a piece, and any other character is part of one. -/
theorem splitOn_cons (c : Char) (text : List Char) :
    (c :: text).splitOn '\n' =
      if c = '\n' then [] :: text.splitOn '\n' else (text.splitOn '\n').modifyHead (c :: ·) := by
  rw [List.splitOn_cons_eq_if_modifyHead]
  simp only [beq_iff_eq]

/-- Nothing in front of the first piece makes no difference. -/
theorem modifyHead_nil_append (pieces : List (List Char)) :
    pieces.modifyHead (([] : List Char).reverse ++ ·) = pieces :=
  congrFun List.modifyHead_id pieces

/-- The lines are the pieces between line feeds; an empty piece at the end is not a line. -/
theorem splitOn_eq_linesFrom (current text : List Char) :
    (text.splitOn '\n').modifyHead (current.reverse ++ ·) = linesFrom current text ∨
      (text.splitOn '\n').modifyHead (current.reverse ++ ·) = linesFrom current text ++ [[]] := by
  induction text generalizing current with
  | nil =>
    rw [List.splitOn_nil, List.modifyHead_cons, List.append_nil, linesFrom]
    cases current with
    | nil => exact .inr rfl
    | cons c current => exact .inl rfl
  | cons c text ih =>
    rw [splitOn_cons, linesFrom]
    by_cases hc : c = '\n'
    · rw [if_pos hc, if_pos hc, List.modifyHead_cons, List.append_nil]
      rcases ih [] with h | h
      · exact .inl (by rw [← h, modifyHead_nil_append])
      · exact .inr (by rw [List.cons_append, ← h, modifyHead_nil_append])
    · rw [if_neg hc, if_neg hc, List.modifyHead_modifyHead]
      have hcurrent : ((current.reverse ++ ·) ∘ (c :: ·)) = ((c :: current).reverse ++ ·) := by
        funext l
        rw [Function.comp_apply, List.reverse_cons, List.append_assoc, List.singleton_append]
      rw [hcurrent]
      exact ih (c :: current)

/-- No piece has the character in it at which the text was cut. -/
theorem notMem_of_mem_splitOn {c : Char} {text piece : List Char} (h : piece ∈ text.splitOn c) : c ∉ piece := by
  induction text generalizing piece with
  | nil =>
    rw [List.splitOn_nil, List.mem_singleton] at h
    rw [h]
    exact List.not_mem_nil
  | cons d text ih =>
    rw [List.splitOn_cons_eq_if_modifyHead] at h
    split at h
    · rcases List.mem_cons.mp h with rfl | h
      · exact List.not_mem_nil
      · exact ih h
    · next hd =>
      obtain ⟨first, rest, hpieces⟩ := List.exists_cons_of_ne_nil (List.splitOn_ne_nil c text)
      rw [hpieces, List.modifyHead_cons, List.mem_cons] at h
      rcases h with rfl | h
      · rw [List.mem_cons, not_or]
        refine ⟨fun heq => hd ?_, ih (hpieces ▸ List.mem_cons_self)⟩
        rw [heq, beq_self_eq_true]
      · exact ih (hpieces ▸ List.mem_cons_of_mem _ h)

theorem splitOn_eq_lines (text : List Char) :
    text.splitOn '\n' = lines text ∨ text.splitOn '\n' = lines text ++ [[]] := by
  have hpieces := splitOn_eq_linesFrom [] text
  rwa [modifyHead_nil_append] at hpieces

theorem notMem_of_mem_lines {text line : List Char} (h : line ∈ lines text) : '\n' ∉ line := by
  have hpiece : line ∈ text.splitOn '\n' := by
    rcases splitOn_eq_lines text with heq | heq
    · rwa [heq]
    · rw [heq]
      exact List.mem_append_left _ h
  exact notMem_of_mem_splitOn hpiece

theorem filter_map_trim_lines (text : List Char) :
    ((lines text).map trim).filter (!·.isEmpty) = writtenLines text := by
  rw [writtenLines]
  rcases splitOn_eq_lines text with h | h
  · rw [h]
  · rw [h, List.map_append, List.filter_append]
    exact (List.append_nil _).symm

end Text

/-! ## What each line says -/

namespace DeckLine

/-- What some lines say that are not blank; only the first one may be a heading of the main deck, and only if `isFirst`
holds. -/
def ofLines (isFirst : Bool) : List (List Char) → List DeckLine
  | [] => []
  | line :: lines => ofLine isFirst line :: ofLines false lines

theorem ofLines_false (lines : List (List Char)) : ofLines false lines = lines.map (ofLine false) := by
  induction lines with
  | nil => rfl
  | cons line lines ih => rw [ofLines, ih, List.map_cons]

/-- A blank line says nothing, and whether a line is the first one is still open after it. -/
theorem map_snd_number (k : ℕ) (isFirst : Bool) (lines : List (List Char)) :
    (DeckLine.number k isFirst lines).map (·.2) = ofLines isFirst ((lines.map trim).filter (!·.isEmpty)) := by
  induction lines generalizing k isFirst with
  | nil => rfl
  | cons raw lines ih =>
    by_cases h : (trim raw).isEmpty = true
    · simp only [DeckLine.number, h, if_true, List.map_cons, List.filter_cons, Bool.not_true, Bool.false_eq_true,
        if_false, ih]
    · rw [Bool.not_eq_true] at h
      simp only [DeckLine.number, h, if_true, List.map_cons, List.filter_cons, Bool.not_false, Bool.false_eq_true,
        if_false, ih, ofLines]

end DeckLine

/-- What the lines of a text say, line by line. -/
theorem map_snd_numberedLines (text : String) :
    (numberedLines text).map (·.2) = DeckLine.ofLines true (Text.writtenLines text.toList) := by
  rw [numberedLines, DeckLine.map_snd_number, Text.filter_map_trim_lines]

/-! ## Putting the cards together -/

namespace DeckLine

/-- Whether the line is a heading of the sideboard. -/
def isSideHeading : DeckLine → Bool
  | sideHeading _ => true
  | _ => false

/-- Whether the line is at fault. -/
def isFault : DeckLine → Bool
  | nameless => true
  | unreadable _ => true
  | _ => false

/-- The card of the line, with its copies. -/
def card? : DeckLine → Option (CardName × ℕ)
  | card copies name => some (name, copies)
  | _ => none

/-- The cards before the first heading of the sideboard. -/
def mainEntries (lines : List DeckLine) : List (CardName × ℕ) :=
  (lines.takeWhile (!·.isSideHeading)).filterMap card?

/-- The cards after the first heading of the sideboard. -/
def sideEntries (lines : List DeckLine) : List (CardName × ℕ) :=
  (lines.dropWhile (!·.isSideHeading)).filterMap card?

@[simp] theorem mainEntries_deckHeading (word : String) (lines : List DeckLine) :
    mainEntries (deckHeading word :: lines) = mainEntries lines := rfl

@[simp] theorem sideEntries_deckHeading (word : String) (lines : List DeckLine) :
    sideEntries (deckHeading word :: lines) = sideEntries lines := rfl

end DeckLine

namespace Submission

open DeckLine (card? isFault mainEntries sideEntries)

variable {s s' : Submission} {lines : List (ℕ × DeckLine)}

/-- There is a submission if no line is at fault.  Each deck holds the cards of its lines; in the sideboard no heading
counts any more. -/
theorem assemble_eq_ok_iff (inSideboard : Bool) :
    s.assemble inSideboard lines = .ok s' ↔ (∀ line ∈ lines.map (·.2), line.isFault = false) ∧
      s' = ⟨s.maindeck.addAll (cond inSideboard [] (mainEntries (lines.map (·.2)))),
        s.sideboard.addAll
          (cond inSideboard ((lines.map (·.2)).filterMap card?) (sideEntries (lines.map (·.2))))⟩ := by
  induction lines generalizing s inSideboard with
  | nil =>
    have hnone : ∀ line ∈ ([] : List (ℕ × DeckLine)).map (·.2), line.isFault = false :=
      fun _ hl => absurd hl List.not_mem_nil
    cases inSideboard
    all_goals exact ⟨fun h => ⟨hnone, (Except.ok.inj h).symm⟩, fun h => congrArg Except.ok h.2.symm⟩
  | cons line lines ih =>
    obtain ⟨number, line⟩ := line
    rw [List.map_cons, List.forall_mem_cons]
    -- a heading or a card is not at fault, and what it adds is added by definition
    have hread : ∀ {p q : Prop}, (p ∧ q) ↔ ((false = false ∧ p) ∧ q) :=
      and_congr_left fun _ => (and_iff_right rfl).symm
    cases line with
    | deckHeading word =>
      cases inSideboard
      all_goals exact (ih _).trans hread
    | sideHeading word =>
      cases inSideboard
      all_goals exact (ih true).trans hread
    | card copies name =>
      cases inSideboard
      all_goals exact (ih _).trans hread
    | nameless => exact iff_of_false (fun h => nomatch h) fun h => Bool.noConfusion h.1.1
    | unreadable word => exact iff_of_false (fun h => nomatch h) fun h => Bool.noConfusion h.1.1

end Submission

end DeckLegality
