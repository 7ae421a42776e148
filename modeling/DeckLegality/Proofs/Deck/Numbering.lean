import DeckLegality.Proofs.Deck.Lines
import DeckLegality.Proofs.Text.Trimming

/-!
# The numbers of the lines

A fault is reported with the number of its line, and lines that say nothing count as well.  Reading therefore depends
on more than the lines that say something, but on little more: where they stand.

Lines above others take their numbers and may take the place of the first line (`DeckLine.number_append`); of a line
only its first word counts and what follows it (`DeckLine.number_congr`).  Whatever the lines are, reading them ends
with the fault of the first one that is at fault, or with a submission if there is none.

* `DeckLine.number_append`, `DeckLine.number_congr`: the lines of a text with their numbers.
* `numberedLines_eq_number_splitOn`: they may be taken to be the pieces between line feeds.
* `Submission.assemble_eq_error_iff`, `Submission.exists_assemble_eq_ok_iff`: what comes of reading them.
* `Submission.assemble_map`: numbering them in another way changes nothing but the numbers.
-/

namespace DeckLegality

open Text (splitWord trim)

/-! ## Numbered lines -/

/-- What reading looks at in a line: its first word, and what follows that. -/
def Text.wordsOf (line : List Char) : List Char × List Char := splitWord (trim line)

namespace DeckLine

variable {isFirst : Bool} {line line' : List Char} {lines lines' : List (List Char)}

/-- All of the lines are blank. -/
def areBlank (lines : List (List Char)) : Bool := lines.all fun line => (trim line).isEmpty

theorem areBlank_iff : areBlank lines = true ↔ ∀ line ∈ lines, trim line = [] := by
  simp [areBlank]

theorem number_cons_of_blank (h : trim line = []) (k : ℕ) (isFirst : Bool) (lines : List (List Char)) :
    number k isFirst (line :: lines) = number (k + 1) isFirst lines := by
  simp [number, h]

theorem number_cons_of_ne_nil (h : trim line ≠ []) (k : ℕ) (isFirst : Bool) (lines : List (List Char)) :
    number k isFirst (line :: lines) = (k, ofLine isFirst (trim line)) :: number (k + 1) false lines := by
  simp [number, h]

/-- The lines above have the smaller numbers, and if one of them says anything, then none below is the first one. -/
theorem number_append (k : ℕ) (isFirst : Bool) (lines lines' : List (List Char)) :
    number k isFirst (lines ++ lines') =
      number k isFirst lines ++ number (k + lines.length) (isFirst && areBlank lines) lines' := by
  induction lines generalizing k isFirst with
  | nil => simp [number, areBlank]
  | cons line lines ih =>
    have hlength : k + 1 + lines.length = k + (line :: lines).length := by
      rw [List.length_cons]
      omega
    by_cases h : trim line = []
    · have hblank : areBlank (line :: lines) = areBlank lines := by simp [areBlank, h]
      rw [List.cons_append, number_cons_of_blank h, number_cons_of_blank h, ih, hlength, hblank]
    · have hblank : areBlank (line :: lines) = false := by simp [areBlank, h]
      rw [List.cons_append, number_cons_of_ne_nil h, number_cons_of_ne_nil h, ih, hlength, hblank,
        Bool.and_false, Bool.false_and, List.cons_append]

/-- What a line says depends on its words alone. -/
theorem ofLine_congr (h : splitWord line = splitWord line') : ofLine isFirst line = ofLine isFirst line' := by
  rw [ofLine, ofLine, h]

/-- A line is blank if it has no first word. -/
theorem trim_eq_nil_iff_wordsOf : trim line = [] ↔ (Text.wordsOf line).1 = [] := by
  rw [Text.wordsOf]
  constructor
  · intro h
    rw [h]
    rfl
  · intro h
    cases htrim : trim line with
    | nil => rfl
    | cons c rest =>
      -- the first character of a trimmed line is part of its first word
      have hc : Text.isBlank c = false := (Text.isFlush_trim line).start c (by rw [htrim]; rfl)
      rw [htrim, splitWord] at h
      simp [hc] at h

/-- The numbered lines depend on the words of the lines alone. -/
theorem number_congr (h : lines.map Text.wordsOf = lines'.map Text.wordsOf) (k : ℕ) (isFirst : Bool) :
    number k isFirst lines = number k isFirst lines' := by
  induction lines generalizing lines' k isFirst with
  | nil =>
    rw [List.map_nil, eq_comm, List.map_eq_nil_iff] at h
    rw [h]
  | cons line lines ih =>
    obtain ⟨line', lines', rfl, hline, hlines⟩ := List.map_eq_cons_iff.mp h.symm
    by_cases hblank : trim line = []
    · have hblank' : trim line' = [] := by
        rwa [trim_eq_nil_iff_wordsOf, hline, ← trim_eq_nil_iff_wordsOf]
      rw [number_cons_of_blank hblank, number_cons_of_blank hblank', ih hlines.symm]
    · have hblank' : trim line' ≠ [] := by
        rwa [Ne, trim_eq_nil_iff_wordsOf, hline, ← trim_eq_nil_iff_wordsOf]
      rw [number_cons_of_ne_nil hblank, number_cons_of_ne_nil hblank', ih hlines.symm, ofLine_congr hline.symm]

/-- Further down the lines say the same, with larger numbers. -/
theorem number_add (j k : ℕ) (isFirst : Bool) (lines : List (List Char)) :
    number (k + j) isFirst lines = (number k isFirst lines).map fun line => (line.1 + j, line.2) := by
  induction lines generalizing k isFirst with
  | nil => rfl
  | cons line lines ih =>
    have hnext : k + j + 1 = k + 1 + j := by omega
    by_cases h : trim line = []
    · rw [number_cons_of_blank h, number_cons_of_blank h, hnext, ih]
    · rw [number_cons_of_ne_nil h, number_cons_of_ne_nil h, hnext, ih, List.map_cons]

/-- The numbers of some lines are not below that of the first one. -/
theorem le_of_mem_number {k : ℕ} {entry : ℕ × DeckLine} (h : entry ∈ number k isFirst lines) :
    k ≤ entry.1 ∧ entry.1 < k + lines.length := by
  induction lines generalizing k isFirst with
  | nil => exact absurd h List.not_mem_nil
  | cons line lines ih =>
    rw [List.length_cons]
    by_cases hline : trim line = []
    · rw [number_cons_of_blank hline] at h
      have := ih h
      omega
    · rw [number_cons_of_ne_nil hline, List.mem_cons] at h
      rcases h with rfl | h
      · exact ⟨le_refl k, by omega⟩
      · have := ih h
        omega

end DeckLine

/-- The lines of a text are the pieces between its line feeds; an empty piece at the end says nothing. -/
theorem numberedLines_eq_number_splitOn (text : String) :
    numberedLines text = DeckLine.number 1 true (text.toList.splitOn '\n') := by
  rw [numberedLines]
  rcases Text.splitOn_eq_lines text.toList with h | h
  · rw [h]
  · rw [h, DeckLine.number_append]
    exact (List.append_nil _).symm

/-! ## The first fault -/

/-- What is wrong with a line that has this number. -/
def DeckLine.fault? (number : ℕ) : DeckLine → Option DecklistFault
  | nameless => some (.missingCardName number)
  | unreadable word => some (.invalidQuantity number word)
  | _ => none

/-- The fault of the first line that is at fault. -/
def firstFault? (lines : List (ℕ × DeckLine)) : Option DecklistFault :=
  lines.findSome? fun line => line.2.fault? line.1

theorem firstFault?_append (lines lines' : List (ℕ × DeckLine)) :
    firstFault? (lines ++ lines') = (firstFault? lines).or (firstFault? lines') := List.findSome?_append

namespace Submission

variable {s : Submission} {inSideboard : Bool} {lines : List (ℕ × DeckLine)} {fault : DecklistFault}

theorem assemble_eq_error_iff : s.assemble inSideboard lines = .error fault ↔ firstFault? lines = some fault := by
  induction lines generalizing s inSideboard with
  | nil => exact ⟨fun h => (nomatch h), fun h => (nomatch h)⟩
  | cons line lines ih =>
    obtain ⟨number, line⟩ := line
    rw [assemble.eq_def, firstFault?, List.findSome?_cons]
    cases line with
    | deckHeading word => exact ih
    | sideHeading word => exact ih
    | card copies name =>
      cases inSideboard
      all_goals exact ih
    | nameless => exact ⟨fun h => congrArg some (Except.error.inj h), fun h => congrArg Except.error (Option.some.inj h)⟩
    | unreadable word =>
      exact ⟨fun h => congrArg some (Except.error.inj h), fun h => congrArg Except.error (Option.some.inj h)⟩

theorem exists_assemble_eq_ok_iff : (∃ s', s.assemble inSideboard lines = .ok s') ↔ firstFault? lines = none := by
  cases h : s.assemble inSideboard lines with
  | ok s' =>
    refine iff_of_true ⟨s', rfl⟩ (Option.eq_none_iff_forall_ne_some.mpr fun fault hfault => ?_)
    have herror : s.assemble inSideboard lines = .error fault := assemble_eq_error_iff.mpr hfault
    rw [h] at herror
    exact nomatch herror
  | error fault =>
    rw [assemble_eq_error_iff.mp h]
    exact iff_of_false (fun ⟨s', hs'⟩ => nomatch hs') (Option.some_ne_none fault)

end Submission

/-! ## Other numbers -/

/-- The same fault in a line with another number. -/
def DecklistFault.renumber (f : ℕ → ℕ) : DecklistFault → DecklistFault
  | invalidQuantity line word => invalidQuantity (f line) word
  | missingCardName line => missingCardName (f line)

/-- The numbers of the lines show in the number of the fault and nowhere else. -/
theorem Submission.assemble_map (f : ℕ → ℕ) (s : Submission) (inSideboard : Bool) (lines : List (ℕ × DeckLine)) :
    s.assemble inSideboard (lines.map fun line => (f line.1, line.2)) =
      (s.assemble inSideboard lines).mapError (·.renumber f) := by
  induction lines generalizing s inSideboard with
  | nil => rfl
  | cons line lines ih =>
    obtain ⟨number, line⟩ := line
    rw [List.map_cons, assemble.eq_def, assemble.eq_def _ _ (_ :: _)]
    cases line with
    | deckHeading word => exact ih s inSideboard
    | sideHeading word => exact ih s true
    | card copies name =>
      cases inSideboard
      all_goals exact ih _ _
    | nameless => rfl
    | unreadable word => rfl

end DeckLegality
