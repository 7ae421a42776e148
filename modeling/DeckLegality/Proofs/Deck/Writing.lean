import DeckLegality.Proofs.Deck.Merging
import DeckLegality.Proofs.Deck.Reading
import DeckLegality.Proofs.Text.Trimming

/-!
# Writing a decklist down

There are many ways of writing the same decklist.  A `TextLayout` is one of them: the headings, the x after each
quantity, and the blank lines around the others.  Reading does not tell them apart.  The name of a card may look like
a heading or like a quantity, since a line is known by its first word, and that is always the number of copies.

* `TextLayout.text`: the text of some entries in a layout.
* `writtenLines_text`: without its blank lines the text has one line for each heading and each entry.
* `Submission.isWritable_of_ofText`: the entries that reading gives can be written down.
* `Submission.ofText_text`: what was written down is read again, and so is what was read.
-/

namespace DeckLegality

open Text (IsFlush isBlank maxCount splitWord trim writtenLines)

/-! ## Lines -/

namespace Text

theorem mem_writtenLines {text line : List Char} (h : line ∈ writtenLines text) : '\n' ∉ line := by
  rw [writtenLines, List.mem_filter, List.mem_map] at h
  obtain ⟨⟨piece, hpiece, rfl⟩, -⟩ := h
  exact fun hmem => notMem_of_mem_splitOn hpiece (mem_of_mem_trim hmem)

/-- Lines that are put one below the other are read line by line. -/
theorem writtenLines_intercalate {lines : List (List Char)} (h : ∀ line ∈ lines, '\n' ∉ line) :
    writtenLines (['\n'].intercalate lines) = (lines.map trim).filter (!·.isEmpty) := by
  cases lines with
  | nil => rfl
  | cons line lines => rw [writtenLines, List.splitOn_intercalate '\n' h (List.cons_ne_nil _ _)]

end Text

/-! ## Entries that can be written down -/

/-- The name can be written after a quantity: it is not empty, there is no blank at its ends, and it is on one line. -/
structure CardName.IsWritable (n : CardName) : Prop where
  ne_nil : n.text.toList ≠ []
  isTrimmed : n.IsTrimmed
  oneLine : '\n' ∉ n.text.toList

theorem CardName.isWritable_iff {n : CardName} :
    n.IsWritable ↔ n.text.toList ≠ [] ∧ n.IsTrimmed ∧ '\n' ∉ n.text.toList :=
  ⟨fun h => ⟨h.ne_nil, h.isTrimmed, h.oneLine⟩, fun h => ⟨h.1, h.2.1, h.2.2⟩⟩

instance (n : CardName) : Decidable n.IsWritable := decidable_of_iff' _ CardName.isWritable_iff

/-- A trimmed name has no blank at its ends. -/
theorem CardName.IsTrimmed.isFlush {n : CardName} (h : n.IsTrimmed) : IsFlush n.text.toList := by
  have htoList := congrArg String.toList h
  rw [Text.trimmed, String.toList_ofList] at htoList
  exact Text.trim_eq_self_iff.mp htoList

theorem CardName.isTrimmed_ofList {s : List Char} (h : IsFlush s) : CardName.IsTrimmed ⟨String.ofList s⟩ := by
  rw [IsTrimmed, Text.trimmed, String.toList_ofList, Text.trim_eq_self_iff.mpr h]

/-- The entry can be written on a line: so can the name, and the copies are not above the largest count. -/
def IsWritableEntry (e : CardName × ℕ) : Prop := e.1.IsWritable ∧ e.2 ≤ maxCount

instance (e : CardName × ℕ) : Decidable (IsWritableEntry e) := inferInstanceAs (Decidable (_ ∧ _))

/-! ## Layouts -/

/-- What stands behind the digits of a quantity. -/
inductive TimesSign where
  | nothing
  | small
  | capital
  deriving DecidableEq

/-- The sign as it is written. -/
def TimesSign.text : TimesSign → List Char
  | nothing => []
  | small => ['x']
  | capital => ['X']

/-- A line that says nothing. -/
structure BlankLine where
  text : List Char
  isBlank : ∀ c ∈ text, Text.isBlank c = true := by simp
  oneLine : '\n' ∉ text := by simp

/-- A way of writing a decklist down. -/
structure TextLayout where
  /-- Whether the main deck has a heading. -/
  deckHeading : Bool
  /-- Whether the sideboard has a heading even if it has no entries. -/
  sideHeading : Bool
  /-- What stands behind the quantities of the main deck, entry by entry. -/
  mainSign : ℕ → TimesSign
  /-- What stands behind the quantities of the sideboard, entry by entry. -/
  sideSign : ℕ → TimesSign
  /-- The blank lines in front of each line, and at last those at the end. -/
  gap : ℕ → List BlankLine

/-- The line of an entry: its copies, the sign behind them, a space and its name. -/
def entryLine (sign : TimesSign) (e : CardName × ℕ) : List Char :=
  Nat.toDigits 10 e.2 ++ sign.text ++ ' ' :: e.1.text.toList

/-- The lines of some entries, where `sign` gives the sign of each and `i` is the number of the first one. -/
def entryLines (sign : ℕ → TimesSign) (i : ℕ) : List (CardName × ℕ) → List (List Char)
  | [] => []
  | e :: l => entryLine (sign i) e :: entryLines sign (i + 1) l

/-- Some lines with blank lines around them, where `gap` gives the blank lines in front of each and at the end, and `i`
is the number of the first line. -/
def spaceOut (gap : ℕ → List BlankLine) (i : ℕ) : List (List Char) → List (List Char)
  | [] => (gap i).map (·.text)
  | line :: lines => (gap i).map (·.text) ++ line :: spaceOut gap (i + 1) lines

namespace TextLayout

/-- The heading of the main deck, if there is one, and the lines of its entries. -/
def mainLines (L : TextLayout) (main : List (CardName × ℕ)) : List (List Char) :=
  (if L.deckHeading then ["Deck".toList] else []) ++ entryLines L.mainSign 0 main

/-- The heading of the sideboard and the lines of its entries; nothing of it, if there is none. -/
def sideLines (L : TextLayout) (side : List (CardName × ℕ)) : List (List Char) :=
  if L.sideHeading ∨ side ≠ [] then "Sideboard".toList :: entryLines L.sideSign 0 side else []

/-- The lines that say something. -/
def lines (L : TextLayout) (main side : List (CardName × ℕ)) : List (List Char) := L.mainLines main ++ L.sideLines side

/-- The text of the entries of a main deck and a sideboard. -/
def text (L : TextLayout) (main side : List (CardName × ℕ)) : String :=
  String.ofList (['\n'].intercalate (spaceOut L.gap 0 (L.lines main side)))

end TextLayout

/-! ## The lines of entries -/

section EntryLines

variable {sign : ℕ → TimesSign} {s : TimesSign} {i : ℕ} {e : CardName × ℕ} {l : List (CardName × ℕ)}

theorem isQuantity_entryLine (hle : e.2 ≤ maxCount) : DeckLine.IsQuantity (Nat.toDigits 10 e.2 ++ s.text) e.2 := by
  refine ⟨[], Nat.toDigits 10 e.2, s.text, rfl, List.mem_cons_self, ?_, Nat.toDigits_ne_nil,
    fun c hc => Text.isDigit_of_mem_toDigits hc, Text.digitsValue_toDigits e.2, hle⟩
  cases s with
  | nothing => exact List.mem_cons_self
  | small => exact List.mem_cons_of_mem _ List.mem_cons_self
  | capital => exact List.mem_cons_of_mem _ (List.mem_cons_of_mem _ List.mem_cons_self)

/-- The first word of a line is the quantity, and what follows it is the name, whatever the name looks like. -/
theorem splitWord_entryLine (he : IsWritableEntry e) :
    splitWord (entryLine s e) = (Nat.toDigits 10 e.2 ++ s.text, e.1.text.toList) := by
  rw [entryLine, Text.splitWord_append (isQuantity_entryLine he.2).isBlank_eq_false (by decide),
    Text.trim_eq_self_iff.mpr he.1.isTrimmed.isFlush]

theorem readsAs_entryLine (he : IsWritableEntry e) : ReadsAs (entryLine s e) e := by
  rw [ReadsAs, splitWord_entryLine he]
  exact ⟨isQuantity_entryLine he.2, he.1.ne_nil, rfl⟩

/-- The line of an entry starts with a digit and ends with the end of the name. -/
theorem isFlush_entryLine (he : IsWritableEntry e) : IsFlush (entryLine s e) := by
  have hquantity := isQuantity_entryLine (s := s) he.2
  have hne : Nat.toDigits 10 e.2 ++ s.text ≠ [] := List.append_ne_nil_of_left_ne_nil Nat.toDigits_ne_nil _
  refine IsFlush.append (fun c hc => hquantity.isBlank_eq_false c (List.mem_of_mem_head? hc)) hne (fun c hc => ?_)
    (List.cons_ne_nil _ _)
  rw [List.getLast?_cons_of_ne_nil he.1.ne_nil] at hc
  exact he.1.isTrimmed.isFlush.finish c hc

theorem oneLine_entryLine (he : IsWritableEntry e) : '\n' ∉ entryLine s e := by
  rw [entryLine, List.mem_append, List.mem_cons, not_or, not_or]
  refine ⟨fun hmem => ?_, by decide, he.1.oneLine⟩
  have hblank := (isQuantity_entryLine (s := s) he.2).isBlank_eq_false _ hmem
  exact absurd hblank (by decide)

theorem mem_entryLines {line : List Char} (h : line ∈ entryLines sign i l) :
    ∃ e ∈ l, ∃ s, line = entryLine s e := by
  induction l generalizing i with
  | nil => exact absurd h List.not_mem_nil
  | cons e l ih =>
    rcases List.mem_cons.mp h with rfl | h
    · exact ⟨e, List.mem_cons_self, _, rfl⟩
    · obtain ⟨e', he', s, rfl⟩ := ih h
      exact ⟨e', List.mem_cons_of_mem _ he', s, rfl⟩

/-- The line of an entry is no heading of either deck. -/
theorem not_isHeading_of_readsAs {line : List Char} (h : ReadsAs line e) :
    ¬ IsHeading default "deck" line ∧ ¬ IsHeading default "side" line := by
  obtain ⟨hdeck, hside⟩ := h.1.not_heading
  exact ⟨fun hh => absurd ((DeckLine.isDeckWord_iff default).mpr hh) (Bool.eq_false_iff.mp hdeck),
    fun hh => absurd ((DeckLine.isSideWord_iff default).mpr hh) (Bool.eq_false_iff.mp hside)⟩

/-- What can be read off a line is what the line says. -/
theorem card?_ofLine_of_readsAs {line : List Char} (h : ReadsAs line e) :
    (DeckLine.ofLine false line).card? = some e := by
  obtain ⟨hquantity, hne, hname⟩ := h
  have hside : ¬ DeckLine.isSideWord (splitWord line).1 = true := Bool.eq_false_iff.mp hquantity.not_heading.2
  rw [DeckLine.ofLine_false_of_quantity?_eq_some hside (DeckLine.quantity?_eq_some_iff.mpr hquantity),
    if_neg (by rwa [List.isEmpty_iff]), ← hname, String.ofList_toList]
  rfl

/-- The lines of some entries say these entries. -/
theorem filterMap_entryLines (hl : ∀ e ∈ l, IsWritableEntry e) :
    (entryLines sign i l).filterMap (DeckLine.card? ∘ DeckLine.ofLine false) = l := by
  induction l generalizing i with
  | nil => rfl
  | cons e l ih =>
    obtain ⟨he, hl⟩ := List.forall_mem_cons.mp hl
    have hcard : (DeckLine.card? ∘ DeckLine.ofLine false) (entryLine (sign i) e) = some e :=
      card?_ofLine_of_readsAs (readsAs_entryLine he)
    rw [entryLines, List.filterMap_cons_some hcard, ih hl]

end EntryLines

/-! ## Blank lines -/

theorem BlankLine.trim_text (b : BlankLine) : trim b.text = [] := Text.trim_eq_nil b.isBlank

theorem oneLine_spaceOut {gap : ℕ → List BlankLine} {i : ℕ} {lines : List (List Char)}
    (h : ∀ line ∈ lines, '\n' ∉ line) : ∀ line ∈ spaceOut gap i lines, '\n' ∉ line := by
  have hgap : ∀ i, ∀ line ∈ (gap i).map (·.text), '\n' ∉ line := fun i =>
    List.forall_mem_map.mpr fun b _ => b.oneLine
  induction lines generalizing i with
  | nil => exact hgap i
  | cons line lines ih =>
    obtain ⟨hline, hlines⟩ := List.forall_mem_cons.mp h
    exact List.forall_mem_append.mpr ⟨hgap i, List.forall_mem_cons.mpr ⟨hline, ih hlines⟩⟩

/-- Trimming the lines and leaving out the blank ones gives the lines that say something. -/
theorem filter_map_trim_spaceOut {gap : ℕ → List BlankLine} {i : ℕ} {lines : List (List Char)}
    (h : ∀ line ∈ lines, IsFlush line ∧ line ≠ []) :
    ((spaceOut gap i lines).map trim).filter (!·.isEmpty) = lines := by
  have hgap : ∀ i, (((gap i).map (·.text)).map trim).filter (!·.isEmpty) = [] := fun i => by
    rw [List.map_map, List.filter_eq_nil_iff, List.forall_mem_map]
    intro b _
    rw [Function.comp_apply, b.trim_text]
    exact Bool.noConfusion
  induction lines generalizing i with
  | nil => exact hgap i
  | cons line lines ih =>
    obtain ⟨⟨hflush, hne⟩, hlines⟩ := List.forall_mem_cons.mp h
    have hkeep : (!line.isEmpty) = true := by rwa [Bool.not_eq_true', ← Bool.not_eq_true, List.isEmpty_iff]
    rw [spaceOut, List.map_append, List.filter_append, hgap i, List.nil_append, List.map_cons,
      Text.trim_eq_self_iff.mpr hflush, List.filter_cons_of_pos (p := fun line : List Char => !line.isEmpty) hkeep,
      ih hlines]

/-! ## The lines of a layout -/

theorem isHeading_deck : IsHeading default "deck" "Deck".toList := (DeckLine.isDeckWord_iff default).mp (by decide)

theorem isHeading_side : IsHeading default "side" "Sideboard".toList := (DeckLine.isSideWord_iff default).mp (by decide)

/-- The heading of the sideboard is none of the main deck. -/
theorem not_isHeading_deck : ¬ IsHeading default "deck" "Sideboard".toList :=
  mt (DeckLine.isDeckWord_iff default).mpr (by decide)

section Lines

variable {L : TextLayout} {main side : List (CardName × ℕ)}

theorem mem_lines {line : List Char} (h : line ∈ L.lines main side) :
    line = "Deck".toList ∨ line = "Sideboard".toList ∨ ∃ e ∈ main ++ side, ∃ s, line = entryLine s e := by
  rw [TextLayout.lines, TextLayout.mainLines, TextLayout.sideLines, List.mem_append, List.mem_append] at h
  rcases h with (h | h) | h
  · split at h
    · exact .inl (List.mem_singleton.mp h)
    · exact absurd h List.not_mem_nil
  · obtain ⟨e, he, s, rfl⟩ := mem_entryLines h
    exact .inr (.inr ⟨e, List.mem_append_left _ he, s, rfl⟩)
  · split at h
    · rcases List.mem_cons.mp h with rfl | h
      · exact .inr (.inl rfl)
      · obtain ⟨e, he, s, rfl⟩ := mem_entryLines h
        exact .inr (.inr ⟨e, List.mem_append_right _ he, s, rfl⟩)
    · exact absurd h List.not_mem_nil

/-- Without its blank lines the text has one line for each heading and each entry. -/
theorem writtenLines_text (h : ∀ e ∈ main ++ side, IsWritableEntry e) :
    writtenLines (L.text main side).toList = L.lines main side := by
  have hlines : ∀ line ∈ L.lines main side, '\n' ∉ line ∧ IsFlush line ∧ line ≠ [] := by
    intro line hline
    rcases mem_lines hline with rfl | rfl | ⟨e, he, s, rfl⟩
    · exact ⟨by decide, Text.trim_eq_self_iff.mp (by decide), by decide⟩
    · exact ⟨by decide, Text.trim_eq_self_iff.mp (by decide), by decide⟩
    · exact ⟨oneLine_entryLine (h e he), isFlush_entryLine (h e he), List.append_ne_nil_of_right_ne_nil _
        (List.cons_ne_nil _ _)⟩
  rw [TextLayout.text, String.toList_ofList,
    Text.writtenLines_intercalate (oneLine_spaceOut fun line hline => (hlines line hline).1),
    filter_map_trim_spaceOut fun line hline => (hlines line hline).2]

/-- A heading of the main deck is not part of the body; the first line of the body is none. -/
theorem bodyLines_text (h : ∀ e ∈ main ++ side, IsWritableEntry e) :
    bodyLines default (L.text main side) = entryLines L.mainSign 0 main ++ L.sideLines side := by
  rw [bodyLines, writtenLines_text h, TextLayout.lines, TextLayout.mainLines]
  cases L.deckHeading with
  | true => exact if_pos isHeading_deck
  | false =>
    -- the first line is that of an entry or the heading of the sideboard, if there is a line at all
    cases main with
    | nil =>
      rw [TextLayout.sideLines]
      by_cases hside : L.sideHeading = true ∨ side ≠ []
      · rw [if_pos hside]
        exact if_neg not_isHeading_deck
      · rw [if_neg hside]
        rfl
    | cons e main =>
      have he := h e (List.mem_append_left _ List.mem_cons_self)
      exact if_neg (not_isHeading_of_readsAs (readsAs_entryLine he)).1

/-- Whether the line is no heading of the sideboard. -/
def isPlain (line : List Char) : Bool := ¬ IsHeading default "side" line

theorem not_isPlain_sideboard : ¬ isPlain "Sideboard".toList = true := by
  rw [isPlain, decide_eq_true_eq, not_not]
  exact isHeading_side

theorem isPlain_entryLines {sign : ℕ → TimesSign} {l : List (CardName × ℕ)} (h : ∀ e ∈ l, IsWritableEntry e) :
    ∀ line ∈ entryLines sign 0 l, isPlain line = true := by
  intro line hline
  obtain ⟨e, he, s, rfl⟩ := mem_entryLines hline
  exact decide_eq_true (not_isHeading_of_readsAs (readsAs_entryLine (h e he))).2

theorem maindeckLines_text (h : ∀ e ∈ main ++ side, IsWritableEntry e) :
    maindeckLines default (L.text main side) = entryLines L.mainSign 0 main := by
  have hmain : ∀ line ∈ entryLines L.mainSign 0 main, isPlain line = true :=
    isPlain_entryLines fun e he => h e (List.mem_append_left side he)
  show (bodyLines default (L.text main side)).takeWhile isPlain = _
  rw [bodyLines_text h, List.takeWhile_append_of_pos hmain, TextLayout.sideLines]
  split
  · rw [List.takeWhile_cons_of_neg not_isPlain_sideboard, List.append_nil]
  · exact List.append_nil _

theorem sideboardLines_text (h : ∀ e ∈ main ++ side, IsWritableEntry e) :
    sideboardLines default (L.text main side) = entryLines L.sideSign 0 side := by
  have hmain : ∀ line ∈ entryLines L.mainSign 0 main, isPlain line = true :=
    isPlain_entryLines fun e he => h e (List.mem_append_left side he)
  have hside : ∀ line ∈ entryLines L.sideSign 0 side, isPlain line = true :=
    isPlain_entryLines fun e he => h e (List.mem_append_right main he)
  show ((bodyLines default (L.text main side)).dropWhile isPlain).filter isPlain = _
  rw [bodyLines_text h, List.dropWhile_append_of_pos hmain, TextLayout.sideLines]
  split
  · rw [List.dropWhile_cons_of_neg not_isPlain_sideboard, List.filter_cons_of_neg not_isPlain_sideboard,
      List.filter_eq_self.mpr hside]
  · next hnone =>
    rw [not_or, not_not] at hnone
    rw [hnone.2]
    rfl

end Lines

/-! ## Reading what was written -/

namespace Decklist

theorem exists_mem_of_mem_entries_ofList {l : List (CardName × ℕ)} {e : CardName × ℕ} (h : e ∈ (ofList l).entries) :
    ∃ k, (e.1, k) ∈ l := by
  have hmem : e.1 ∈ cardsIn l := by
    rw [← names_ofList]
    exact List.mem_map_of_mem h
  have hname : e.1 ∈ l.map (·.1) := by
    by_contra hnot
    rw [mem_cardsIn, copiesIn_eq_zero hnot] at hmem
    exact Nat.lt_irrefl 0 hmem
  obtain ⟨x, hx, hxe⟩ := List.mem_map.mp hname
  exact ⟨x.2, hxe ▸ hx⟩

end Decklist

/-- The name that is read off a line can be written down. -/
theorem isWritable_of_readsAs {line : List Char} {e : CardName × ℕ} (h : ReadsAs line e) (hline : '\n' ∉ line) :
    e.1.IsWritable := by
  obtain ⟨-, hne, hname⟩ := h
  refine ⟨hname ▸ hne, ?_, fun hmem => hline (Text.mem_of_mem_splitWord (hname ▸ hmem))⟩
  have hflush : IsFlush e.1.text.toList := hname ▸ Text.isFlush_splitWord line
  have htrimmed := CardName.isTrimmed_ofList hflush
  rwa [String.ofList_toList] at htrimmed

theorem mem_bodyLines {line : List Char} {text : String} (h : line ∈ bodyLines default text) :
    line ∈ writtenLines text.toList := by
  rw [bodyLines] at h
  cases hlines : writtenLines text.toList with
  | nil =>
    rw [hlines] at h
    exact absurd h List.not_mem_nil
  | cons first lines =>
    simp only [hlines] at h
    split at h
    · exact List.mem_cons_of_mem _ h
    · exact h

namespace Submission

/-- Every entry that reading gives can be written down. -/
theorem isWritable_of_ofText {text : String} {s : Submission} (h : ofText text = .ok s) :
    ∀ e ∈ s.maindeck.entries ++ s.sideboard.entries, IsWritableEntry e := by
  obtain ⟨hreads, rfl⟩ := (ofText_eq_ok_iff default text).mp h
  have hname : ∀ lines : List (List Char),
      (∀ line ∈ lines, line ∈ maindeckLines default text ++ sideboardLines default text) →
        ∀ e ∈ (Decklist.ofList (lines.filterMap (DeckLine.card? ∘ DeckLine.ofLine false))).entries,
          IsWritableEntry e := by
    intro lines hlines e he
    obtain ⟨k, hk⟩ := Decklist.exists_mem_of_mem_entries_ofList he
    obtain ⟨line, hline, hcard⟩ := List.mem_filterMap.mp hk
    obtain ⟨e', he'⟩ := hreads line (hlines line hline)
    obtain rfl : e' = (e.1, k) := Option.some.inj ((card?_ofLine_of_readsAs he').symm.trans hcard)
    have hbody : line ∈ bodyLines default text := by
      have hmem := hlines line hline
      rw [maindeckLines_append_sideboardLines] at hmem
      exact List.mem_of_mem_filter hmem
    have hwritable := isWritable_of_readsAs he' (Text.mem_writtenLines (mem_bodyLines hbody))
    exact ⟨hwritable, ((Decklist.ofList _).counts e he).2⟩
  exact List.forall_mem_append.mpr
    ⟨hname _ fun line => List.mem_append_left _, hname _ fun line => List.mem_append_right _⟩

theorem ofText_text_of_isWritable (L : TextLayout) {main side : List (CardName × ℕ)}
    (h : ∀ e ∈ main ++ side, IsWritableEntry e) : ofText (L.text main side) = .ok ⟨.ofList main, .ofList side⟩ := by
  obtain ⟨hmain, hside⟩ := List.forall_mem_append.mp h
  rw [ofText_eq_ok_iff default, maindeckLines_text h, sideboardLines_text h, filterMap_entryLines hmain,
    filterMap_entryLines hside]
  refine ⟨fun line hline => ?_, rfl⟩
  rcases List.mem_append.mp hline with hline | hline
  · obtain ⟨e, he, s, rfl⟩ := mem_entryLines hline
    exact ⟨e, readsAs_entryLine (hmain e he)⟩
  · obtain ⟨e, he, s, rfl⟩ := mem_entryLines hline
    exact ⟨e, readsAs_entryLine (hside e he)⟩

/-- **What was written down is read again.**  In whatever layout the entries of a main deck and a sideboard are written,
with names on one line that are not empty and have no blank at their ends, and with copies up to the largest count,
reading gives the decklists that come of adding these entries one by one.  The entries that reading gives are such
entries, so a submission that was read can be written down in any layout and is read again as it was. -/
theorem ofText_text (L : TextLayout) :
    (∀ main side : List (CardName × ℕ), (∀ e ∈ main ++ side, e.1.IsWritable ∧ e.2 ≤ maxCount) →
      ofText (L.text main side) = .ok ⟨.ofList main, .ofList side⟩) ∧
    ∀ (text : String) (s : Submission), ofText text = .ok s →
      (∀ e ∈ s.maindeck.entries ++ s.sideboard.entries, e.1.IsWritable ∧ e.2 ≤ maxCount) ∧
      ofText (L.text s.maindeck.entries s.sideboard.entries) = .ok s := by
  refine ⟨fun main side h => ofText_text_of_isWritable L h, fun text s hs => ?_⟩
  have hwritable := isWritable_of_ofText hs
  refine ⟨hwritable, ?_⟩
  rw [ofText_text_of_isWritable L hwritable, Decklist.ofList_entries, Decklist.ofList_entries]

/-- Every second quantity has a sign; there are blank lines in front of the second line and at the end of a short
text. -/
def motley : TextLayout where
  deckHeading := false
  sideHeading := true
  mainSign i := if i % 2 = 0 then .capital else .nothing
  sideSign i := if i % 2 = 0 then .nothing else .small
  gap i := if i = 1 ∨ i = 5 then [⟨[' ', '\r'], by simp [isBlank], by simp⟩, ⟨[], by simp, by simp⟩] else []

/-- Cards with the names of headings, one of them with too many copies and one with none. -/
def masked : List (CardName × ℕ) := [(⟨"Sideboard"⟩, maxCount), (⟨"4x Deck"⟩, 0), (⟨"Sideboard"⟩, 2)]

/-- A card with a carriage return in its name. -/
def maskedSide : List (CardName × ℕ) := [(⟨"2 Deck\rside"⟩, 10)]

theorem ofText_text_motley :
    (motley.text masked maskedSide =
      "4294967295X Sideboard\n \r\n\n0 4x Deck\n2X Sideboard\nSideboard\n10 2 Deck\rside\n \r\n") ∧
    (∀ e ∈ masked ++ maskedSide, e.1.IsWritable ∧ e.2 ≤ maxCount) ∧
    ofText (motley.text masked maskedSide) = .ok ⟨.ofList masked, .ofList maskedSide⟩ ∧
    ofText crowdedText = .ok crowded ∧
    ofText (motley.text crowded.maindeck.entries crowded.sideboard.entries) = .ok crowded := by
  have hwritable : ∀ e ∈ masked ++ maskedSide, e.1.IsWritable ∧ e.2 ≤ maxCount := by decide +kernel
  have hcrowded : ofText crowdedText = .ok crowded := by decide +kernel
  exact ⟨by decide +kernel, hwritable, (ofText_text motley).1 _ _ hwritable, hcrowded,
    ((ofText_text motley).2 _ _ hcrowded).2⟩

end Submission

end DeckLegality
