import DeckLegality.Proofs.Deck.Numbering
import DeckLegality.Proofs.Deck.Reading

/-!
# The fault of a text

Reading a text stops at the first line at fault.  So the fault belongs to a line above which everything can be read, and
it is the same whatever comes below.  What is wrong with the line can be seen from the line alone, but for the
question whether it may be a heading of the main deck: it may as long as all lines above are blank.

* `Text.lines_firstLines`: the first lines of a text make up a text of their own.
* `IsCardLine`, `IsFaultOf`: a line that should have a card, and what is wrong with it.
* `firstFault?_number_eq_some_iff`: the first of some lines that is at fault.
* `Submission.ofText_eq_error_iff_isFirstFault`: which fault reading a text ends with, and what it depends on.
-/

namespace DeckLegality

open Text (LowerCasing isBlank lines splitWord trim)

/-! ## The first lines of a text -/

namespace Text

theorem linesFrom_append {line : List Char} (h : '\n' ∉ line) (current rest : List Char) :
    linesFrom current (line ++ '\n' :: rest) = (current.reverse ++ line) :: lines rest := by
  induction line generalizing current with
  | nil => simp [linesFrom, lines]
  | cons c line ih =>
    rw [List.mem_cons, not_or] at h
    rw [List.cons_append, linesFrom, if_neg (Ne.symm h.1), ih h.2, List.reverse_cons, List.append_assoc,
      List.singleton_append]

/-- Lines that each end with a line feed are the lines of their text. -/
theorem lines_flatMap {l : List (List Char)} (h : ∀ line ∈ l, '\n' ∉ line) : lines (l.flatMap (· ++ ['\n'])) = l := by
  induction l with
  | nil => rfl
  | cons line l ih =>
    obtain ⟨hline, hl⟩ := List.forall_mem_cons.mp h
    rw [List.flatMap_cons, List.append_assoc, List.singleton_append, lines, linesFrom_append hline, ih hl]
    rfl

/-- The text of the first `k` lines of a text. -/
def firstLines (k : ℕ) (text : String) : String :=
  String.ofList (((lines text.toList).take k).flatMap (· ++ ['\n']))

theorem lines_firstLines (k : ℕ) (text : String) :
    lines (firstLines k text).toList = (lines text.toList).take k := by
  rw [firstLines, String.toList_ofList]
  exact lines_flatMap fun line hline => notMem_of_mem_lines (List.mem_of_mem_take hline)

end Text

/-! ## A line at fault -/

/-- The trimmed line, below the lines `before`, should have a card: it is not blank and no heading of the sideboard, and
it is no heading of the main deck either, which may stand below blank lines only. -/
structure IsCardLine (lower : LowerCasing) (before : List (List Char)) (line : List Char) : Prop where
  ne_nil : line ≠ []
  not_side : ¬ IsHeading lower "side" line
  not_deck : (∀ above ∈ before, trim above = []) → ¬ IsHeading lower "deck" line

/-- What is wrong with a trimmed line that should have a card: its first word is not a quantity, or the line is one word
and nothing else. -/
inductive IsFaultOf (line : List Char) : DecklistFault → Prop
  | invalidQuantity (number : ℕ) (h : ∀ k, ¬ DeckLine.IsQuantity (splitWord line).1 k) :
      IsFaultOf line (.invalidQuantity number (String.ofList (splitWord line).1))
  | missingCardName (number : ℕ) {k : ℕ} (h : DeckLine.IsQuantity (splitWord line).1 k)
      (hword : ∀ c ∈ line, isBlank c = false) : IsFaultOf line (.missingCardName number)

namespace DeckLine

variable {lower : LowerCasing} {line : List Char} {number : ℕ} {fault : DecklistFault}

/-- Only a heading of the main deck depends on which line is the first one. -/
theorem ofLine_eq_ofLine_false {isFirst : Bool} (h : isFirst = true → ¬ IsHeading lower "deck" line) :
    ofLine isFirst line = ofLine false line := by
  cases isFirst with
  | false => rfl
  | true => exact if_neg (mt (isDeckWord_iff lower).mp (h rfl))

theorem fault?_ofLine_false_eq_some_iff (lower : LowerCasing) (hline : Text.IsFlush line) :
    (ofLine false line).fault? number = some fault ↔
      ¬ IsHeading lower "side" line ∧ IsFaultOf line fault ∧ fault.line = number := by
  by_cases hside : isSideWord (splitWord line).1 = true
  · rw [ofLine_false_of_isSideWord hside]
    exact iff_of_false (fun h => nomatch h) fun h => h.1 ((isSideWord_iff lower).mp hside)
  · have hplain : ¬ IsHeading lower "side" line := mt (isSideWord_iff lower).mpr hside
    rw [and_iff_right hplain]
    cases hquantity : quantity? (splitWord line).1 with
    | none =>
      have hnone : ∀ k, ¬ IsQuantity (splitWord line).1 k := fun k hk => by
        rw [quantity?_eq_some_iff.mpr hk] at hquantity
        exact nomatch hquantity
      rw [ofLine_false_of_quantity?_eq_none hside hquantity]
      constructor
      · intro h
        obtain rfl := Option.some.inj h
        exact ⟨.invalidQuantity number hnone, rfl⟩
      · rintro ⟨_ | ⟨_, hk, -⟩, rfl⟩
        · rfl
        · exact absurd hk (hnone _)
    | some copies =>
      have hcopies := quantity?_eq_some_iff.mp hquantity
      rw [ofLine_false_of_quantity?_eq_some hside hquantity]
      split
      · next hrest =>
        have hword := (Text.splitWord_snd_eq_nil_iff hline).mp (List.isEmpty_iff.mp hrest)
        constructor
        · intro h
          obtain rfl := Option.some.inj h
          exact ⟨.missingCardName number hcopies hword, rfl⟩
        · rintro ⟨⟨_, hnone⟩ | _, rfl⟩
          · exact absurd hcopies (hnone copies)
          · rfl
      · next hrest =>
        refine iff_of_false (fun h => nomatch h) ?_
        rintro ⟨⟨_, hnone⟩ | ⟨_, -, hword⟩, -⟩
        · exact hnone copies hcopies
        · exact hrest (List.isEmpty_iff.mpr ((Text.splitWord_snd_eq_nil_iff hline).mpr hword))

/-- What reading reports of a line is what is wrong with it. -/
theorem fault?_ofLine_eq_some_iff (lower : LowerCasing) {isFirst : Bool} (hline : Text.IsFlush line) :
    (ofLine isFirst line).fault? number = some fault ↔
      (¬ IsHeading lower "side" line ∧ (isFirst = true → ¬ IsHeading lower "deck" line)) ∧
        IsFaultOf line fault ∧ fault.line = number := by
  by_cases hdeck : isFirst = true → ¬ IsHeading lower "deck" line
  · rw [ofLine_eq_ofLine_false hdeck, fault?_ofLine_false_eq_some_iff lower hline, and_iff_left hdeck]
  · obtain ⟨rfl, hheading⟩ := Classical.not_imp.mp hdeck
    have hdeckLine : ofLine true line = deckHeading (String.ofList (splitWord line).1) :=
      if_pos ((isDeckWord_iff lower).mpr (not_not.mp hheading))
    rw [hdeckLine]
    exact iff_of_false (fun h => nomatch h) fun h => hdeck h.1.2

end DeckLine

/-! ## The first line at fault -/

section FirstFault

variable {lower : LowerCasing} {k : ℕ} {isFirst : Bool} {raw : List (List Char)} {fault : DecklistFault}

/-- There is a fault in some lines if one of them is at fault and none above. -/
theorem firstFault?_number_eq_some_iff :
    firstFault? (DeckLine.number k isFirst raw) = some fault ↔
      ∃ before line after, raw = before ++ line :: after ∧ trim line ≠ [] ∧
        firstFault? (DeckLine.number k isFirst before) = none ∧
        (DeckLine.ofLine (isFirst && DeckLine.areBlank before) (trim line)).fault? (k + before.length) = some fault := by
  constructor
  · intro h
    -- the lines above are counted one by one
    induction raw generalizing k isFirst with
    | nil => exact nomatch h
    | cons line raw ih =>
      by_cases hline : trim line = []
      · rw [DeckLine.number_cons_of_blank hline] at h
        obtain ⟨before, line', after, rfl, hne, hbefore, hfault⟩ := ih h
        refine ⟨line :: before, line', after, rfl, hne, by rwa [DeckLine.number_cons_of_blank hline], ?_⟩
        have hblank : DeckLine.areBlank (line :: before) = DeckLine.areBlank before := by
          simp [DeckLine.areBlank, hline]
        rwa [hblank, List.length_cons, Nat.add_comm before.length, ← Nat.add_assoc]
      · rw [DeckLine.number_cons_of_ne_nil hline, firstFault?, List.findSome?_cons] at h
        cases hfault : (DeckLine.ofLine isFirst (trim line)).fault? k with
        | some fault' =>
          rw [hfault] at h
          refine ⟨[], line, raw, rfl, hline, rfl, ?_⟩
          rwa [← h, List.length_nil, Nat.add_zero, DeckLine.areBlank, List.all_nil, Bool.and_true]
        | none =>
          rw [hfault] at h
          obtain ⟨before, line', after, rfl, hne, hbefore, hfault'⟩ := ih h
          refine ⟨line :: before, line', after, rfl, hne, ?_, ?_⟩
          · rwa [DeckLine.number_cons_of_ne_nil hline, firstFault?, List.findSome?_cons, hfault]
          · have hblank : DeckLine.areBlank (line :: before) = false := by simp [DeckLine.areBlank, hline]
            rw [Bool.false_and] at hfault'
            rwa [hblank, Bool.and_false, List.length_cons, Nat.add_comm before.length, ← Nat.add_assoc]
  · rintro ⟨before, line, after, rfl, hne, hbefore, hfault⟩
    rw [DeckLine.number_append, DeckLine.number_cons_of_ne_nil hne, firstFault?_append, hbefore, Option.none_or,
      firstFault?, List.findSome?_cons, hfault]

/-- A fault in the first lines is a fault in all of them. -/
theorem firstFault?_number_of_take {n : ℕ} (h : firstFault? (DeckLine.number k isFirst (raw.take n)) = some fault) :
    firstFault? (DeckLine.number k isFirst raw) = some fault := by
  rw [← List.take_append_drop n raw, DeckLine.number_append, firstFault?_append, h, Option.some_or]

/-- Nothing below the line at fault is needed to find it. -/
theorem firstFault?_number_take {raw : List (List Char)} (h : firstFault? (DeckLine.number 1 true raw) = some fault) :
    firstFault? (DeckLine.number 1 true (raw.take fault.line)) = some fault := by
  obtain ⟨before, line, after, rfl, hne, hbefore, hfault⟩ := firstFault?_number_eq_some_iff.mp h
  have hnumber : fault.line = (before ++ [line]).length := by
    rw [((DeckLine.fault?_ofLine_eq_some_iff default (Text.isFlush_trim line)).mp hfault).2.2,
      List.length_append, List.length_singleton, Nat.add_comm]
  rw [hnumber, List.append_cons before line after, List.take_left]
  exact firstFault?_number_eq_some_iff.mpr ⟨before, line, [], rfl, hne, hbefore, hfault⟩

/-- If there is no fault in some lines, there is none in the first ones. -/
theorem firstFault?_number_take_eq_none (h : firstFault? (DeckLine.number k isFirst raw) = none) (n : ℕ) :
    firstFault? (DeckLine.number k isFirst (raw.take n)) = none := by
  rw [Option.eq_none_iff_forall_ne_some]
  intro fault hfault
  rw [firstFault?_number_of_take hfault] at h
  exact Option.some_ne_none fault h

end FirstFault

namespace Submission

open Text (firstLines)

theorem ofText_eq_error_iff {text : String} {fault : DecklistFault} :
    ofText text = .error fault ↔ firstFault? (DeckLine.number 1 true (lines text.toList)) = some fault :=
  assemble_eq_error_iff

theorem exists_ofText_eq_ok_iff_firstFault? {text : String} :
    (∃ s, ofText text = .ok s) ↔ firstFault? (DeckLine.number 1 true (lines text.toList)) = none :=
  exists_assemble_eq_ok_iff

theorem exists_ofText_firstLines_eq_ok_iff {k : ℕ} {text : String} :
    (∃ s, ofText (firstLines k text) = .ok s) ↔
      firstFault? (DeckLine.number 1 true ((lines text.toList).take k)) = none := by
  rw [exists_ofText_eq_ok_iff_firstFault?, Text.lines_firstLines]

/-- The fault is that of a line which should have a card, and the text of the lines above can be read. -/
def IsFirstFault (lower : LowerCasing) (text : String) (fault : DecklistFault) : Prop :=
  ∃ before line after, lines text.toList = before ++ line :: after ∧ fault.line = before.length + 1 ∧
    (∃ s, ofText (firstLines before.length text) = .ok s) ∧
    IsCardLine lower before (trim line) ∧ IsFaultOf (trim line) fault

theorem isFirstFault_iff {lower : LowerCasing} {text : String} {fault : DecklistFault} :
    IsFirstFault lower text fault ↔
      firstFault? (DeckLine.number 1 true (lines text.toList)) = some fault := by
  rw [IsFirstFault, firstFault?_number_eq_some_iff]
  refine exists_congr fun before => exists_congr fun line => exists_congr fun after => and_congr_right fun hlines => ?_
  rw [exists_ofText_firstLines_eq_ok_iff, hlines, List.take_left,
    DeckLine.fault?_ofLine_eq_some_iff lower (Text.isFlush_trim line), Bool.true_and, DeckLine.areBlank_iff,
    Nat.add_comm 1]
  constructor
  · rintro ⟨hnumber, hbefore, ⟨hne, hside, hdeck⟩, hfault⟩
    exact ⟨hne, hbefore, ⟨hside, hdeck⟩, hfault, hnumber⟩
  · rintro ⟨hne, hbefore, ⟨hside, hdeck⟩, hfault, hnumber⟩
    exact ⟨hnumber, hbefore, ⟨hne, hside, hdeck⟩, hfault⟩

/-- **Reading stops at the first line at fault.**  It ends with a fault exactly if the text of the lines above can be
read and the line itself should have a card, and then the fault says what is wrong with this line: the first word,
if it is not a quantity, and else that there is no card, since the line is one word.  Any other text with the same
lines up to this one, blanks at their ends apart, has the same fault.  If a text can be read, so can its first lines,
however many. -/
theorem ofText_eq_error_iff_isFirstFault (lower : LowerCasing) (text : String) :
    (∀ fault, ofText text = .error fault ↔ IsFirstFault lower text fault) ∧
    (∀ fault, ofText text = .error fault → ∀ text' : String,
      ((lines text'.toList).take fault.line).map trim = ((lines text.toList).take fault.line).map trim →
        ofText text' = .error fault) ∧
    ((∃ s, ofText text = .ok s) → ∀ k, ∃ s, ofText (firstLines k text) = .ok s) := by
  refine ⟨fun fault => ?_, fun fault hfault text' hsame => ?_, fun hok k => ?_⟩
  · rw [ofText_eq_error_iff, isFirstFault_iff]
  · have hwords := congrArg (List.map splitWord) hsame
    rw [List.map_map, List.map_map] at hwords
    rw [ofText_eq_error_iff] at hfault ⊢
    refine firstFault?_number_of_take (n := fault.line) ?_
    rw [DeckLine.number_congr hwords]
    exact firstFault?_number_take hfault
  · rw [exists_ofText_eq_ok_iff_firstFault?] at hok
    rw [exists_ofText_firstLines_eq_ok_iff]
    exact firstFault?_number_take_eq_none hok k

/-- A heading of the main deck that comes too late. -/
def lateHeadingText : String := "\n Maindeck:\r\n4 Forest\n\nDeck\n2 Island\n"

/-- Its fault is that of its fifth line, also if another text goes on below that line; the lines above are fine, and so
are the first lines of a text without a fault. -/
theorem ofText_eq_error_iff_isFirstFault_lateHeading :
    IsFirstFault default lateHeadingText (.invalidQuantity 5 "Deck") ∧
      ofText "\nMaindeck:\n\t4 Forest\n\r\nDeck\nSide\n2" = .error (.invalidQuantity 5 "Deck") ∧
      IsFirstFault default "1 Plains\r\n 2x \r\n3 Island" (.missingCardName 2) ∧
      ∃ s, ofText (firstLines 3 crowdedText) = .ok s := by
  have hlate : ofText lateHeadingText = .error (.invalidQuantity 5 "Deck") := by decide +kernel
  have hnameless : ofText "1 Plains\r\n 2x \r\n3 Island" = .error (.missingCardName 2) := by decide +kernel
  have hcrowded : ofText crowdedText = .ok crowded := by decide +kernel
  refine ⟨((ofText_eq_error_iff_isFirstFault default lateHeadingText).1 _).mp hlate,
    (ofText_eq_error_iff_isFirstFault default lateHeadingText).2.1 _ hlate _ ?_,
    ((ofText_eq_error_iff_isFirstFault default _).1 _).mp hnameless,
    (ofText_eq_error_iff_isFirstFault default crowdedText).2.2 ⟨crowded, hcrowded⟩ 3⟩
  decide +kernel

end Submission

end DeckLegality
