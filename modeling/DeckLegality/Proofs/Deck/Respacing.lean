import DeckLegality.Proofs.Deck.Numbering

/-!
# Other layouts of a text

People lay out a decklist in their own way: they indent its lines, line up the names of the cards, put blank lines
between its parts, and their editors end the lines in one way or another.  None of this says anything about the decks.
Only the number of a line at fault can tell, as it counts blank lines too.

A single edit leaves the words of all lines as they are, or inserts a blank line and so moves the lines below it by one
(`LayoutEdit.numberedLines_eq`).  After any number of edits every line has moved by as many lines as have been inserted
above it (`Relaid.numberedLines_eq`), and that is all that reading can see.

* `Respaced`, `LayoutEdit`, `Relaid`: other blanks in a line, an edit of a text, and a sequence of edits.
* `Respaced.wordsOf_eq`: the words of a line are still the same.
* `Submission.ofText_of_relaid`: what the text describes after the edits.
-/

namespace DeckLegality

open Text (isBlank splitWord trim wordsOf)

/-! ## Other blanks in a line -/

/-- The line has other blanks at its start, at its end, or between its first word and what follows it.  At the start and
at the end there may also be none, before or after. -/
inductive Respaced : List Char → List Char → Prop
  | start {gap gap' : List Char} (hgap : ∀ c ∈ gap, isBlank c = true) (hgap' : ∀ c ∈ gap', isBlank c = true)
      (line : List Char) : Respaced (gap ++ line) (gap' ++ line)
  | finish {gap gap' : List Char} (line : List Char) (hgap : ∀ c ∈ gap, isBlank c = true)
      (hgap' : ∀ c ∈ gap', isBlank c = true) : Respaced (line ++ gap) (line ++ gap')
  | afterWord {indent word gap gap' : List Char} (hindent : ∀ c ∈ indent, isBlank c = true)
      (hne : word ≠ []) (hword : ∀ c ∈ word, isBlank c = false)
      (hgap : gap ≠ [] ∧ ∀ c ∈ gap, isBlank c = true) (hgap' : gap' ≠ [] ∧ ∀ c ∈ gap', isBlank c = true)
      (rest : List Char) : Respaced (indent ++ (word ++ gap ++ rest)) (indent ++ (word ++ gap' ++ rest))

/-- The words of a line that starts with its first word. -/
theorem Text.wordsOf_append {word gap : List Char} (hne : word ≠ []) (hword : ∀ c ∈ word, isBlank c = false)
    (hgap : gap ≠ [] ∧ ∀ c ∈ gap, isBlank c = true) (rest : List Char) :
    wordsOf (word ++ gap ++ rest) = (word, trim rest) := by
  obtain ⟨hgapne, hblank⟩ := hgap
  obtain ⟨c, gap, rfl⟩ := List.exists_cons_of_ne_nil hgapne
  obtain ⟨hc, hblank⟩ := List.forall_mem_cons.mp hblank
  rw [wordsOf, List.append_assoc, List.cons_append, splitWord_trim_append hne hword hc, trim_append_left hblank]

/-- Other blanks leave the words of a line as they are. -/
theorem Respaced.wordsOf_eq {line line' : List Char} (h : Respaced line line') : wordsOf line' = wordsOf line := by
  cases h with
  | start hgap hgap' line => rw [wordsOf, wordsOf, Text.trim_append_left hgap, Text.trim_append_left hgap']
  | finish line hgap hgap' => rw [wordsOf, wordsOf, Text.trim_append_right line hgap, Text.trim_append_right line hgap']
  | afterWord hindent hne hword hgap hgap' rest =>
    have hindented : ∀ line, wordsOf (_ ++ line) = wordsOf line := fun line => by
      rw [wordsOf, Text.trim_append_left hindent, wordsOf]
    rw [hindented, hindented, Text.wordsOf_append hne hword hgap, Text.wordsOf_append hne hword hgap']

/-! ## Edits of a text -/

/-- An edit of the layout of a text, which inserts `inserted n` lines above the line with number `n`.  Only a line feed
ends a line. -/
inductive LayoutEdit : (inserted : ℕ → ℕ) → String → String → Prop
  /-- A blank line is inserted below the lines `above`. -/
  | insertLine {text text' : String} {above below : List (List Char)} {line : List Char}
      (hline : ∀ c ∈ line, isBlank c = true) (htext : text.toList.splitOn '\n' = above ++ below)
      (htext' : text'.toList.splitOn '\n' = above ++ line :: below) :
      LayoutEdit (fun n => if above.length < n then 1 else 0) text text'
  /-- A line is given other blanks. -/
  | respaceLine {text text' : String} {above below : List (List Char)} {line line' : List Char}
      (hline : Respaced line line') (htext : text.toList.splitOn '\n' = above ++ line :: below)
      (htext' : text'.toList.splitOn '\n' = above ++ line' :: below) : LayoutEdit (fun _ => 0) text text'
  /-- A line feed gets a carriage return before it. -/
  | carriageReturn {text text' : String} {before after : List Char} (htext : text.toList = before ++ '\n' :: after)
      (htext' : text'.toList = before ++ '\r' :: '\n' :: after) : LayoutEdit (fun _ => 0) text text'

/-- Edits of the layout of a text, one after the other, which insert `inserted n` lines in all above the line that has
the number `n` at first. -/
inductive Relaid : (inserted : ℕ → ℕ) → String → String → Prop
  | refl (text : String) : Relaid (fun _ => 0) text text
  | step {inserted inserted' : ℕ → ℕ} {text text' text'' : String} (h : Relaid inserted text text')
      (hedit : LayoutEdit inserted' text' text'') :
      Relaid (fun n => inserted n + inserted' (n + inserted n)) text text''

/-- What is put at the end of a text without a line feed is put at the end of its last line. -/
theorem Text.exists_splitOn_append (text : List Char) :
    ∃ above line, ∀ more, '\n' ∉ more → (text ++ more).splitOn '\n' = above ++ [line ++ more] := by
  induction text with
  | nil => exact ⟨[], [], fun more hmore => List.splitOn_eq_singleton hmore⟩
  | cons c text ih =>
    obtain ⟨above, line, h⟩ := ih
    by_cases hc : c = '\n'
    · refine ⟨[] :: above, line, fun more hmore => ?_⟩
      rw [List.cons_append, splitOn_cons, if_pos hc, h more hmore, List.cons_append]
    · cases above with
      | nil =>
        refine ⟨[], c :: line, fun more hmore => ?_⟩
        rw [List.cons_append, splitOn_cons, if_neg hc, h more hmore]
        rfl
      | cons first above =>
        refine ⟨(c :: first) :: above, line, fun more hmore => ?_⟩
        rw [List.cons_append, splitOn_cons, if_neg hc, h more hmore]
        rfl

/-- A carriage return at the end of a line is one more blank there. -/
theorem exists_respaced_of_carriageReturn (before after : List Char) :
    ∃ above line below, Respaced line (line ++ ['\r']) ∧
      (before ++ '\n' :: after).splitOn '\n' = above ++ line :: below ∧
      (before ++ '\r' :: '\n' :: after).splitOn '\n' = above ++ (line ++ ['\r']) :: below := by
  obtain ⟨above, line, h⟩ := Text.exists_splitOn_append before
  have hblank : ∀ c ∈ ['\r'], isBlank c = true := by simp [isBlank]
  have hrespaced : Respaced (line ++ []) (line ++ ['\r']) := .finish line (by simp) hblank
  refine ⟨above, line, after.splitOn '\n', by rwa [List.append_nil] at hrespaced, ?_, ?_⟩
  · have hbefore := h [] List.not_mem_nil
    rw [List.append_nil, List.append_nil] at hbefore
    rw [List.splitOn_append_cons_self, hbefore, List.append_assoc, List.singleton_append]
  · rw [List.append_cons, List.splitOn_append_cons_self, h ['\r'] (by simp), List.append_assoc, List.singleton_append]

/-! ## Reading after the edits -/

/-- A line with other blanks says the same. -/
theorem number_append_cons_of_respaced {line line' : List Char} (h : Respaced line line') (above below : List (List Char)) :
    DeckLine.number 1 true (above ++ line' :: below) = DeckLine.number 1 true (above ++ line :: below) := by
  refine DeckLine.number_congr ?_ 1 true
  rw [List.map_append, List.map_append, List.map_cons, List.map_cons, h.wordsOf_eq]

/-- Below a blank line the lines say the same, but their numbers are larger by one. -/
theorem number_append_cons_of_blank {line : List Char} (hline : trim line = []) (above below : List (List Char)) :
    DeckLine.number 1 true (above ++ line :: below) =
      (DeckLine.number 1 true (above ++ below)).map
        fun entry => (entry.1 + if above.length < entry.1 then 1 else 0, entry.2) := by
  rw [DeckLine.number_append, DeckLine.number_append, DeckLine.number_cons_of_blank hline, DeckLine.number_add,
    List.map_append]
  refine congrArg₂ (· ++ ·) ?_ (List.map_congr_left fun entry hentry => ?_)
  · refine ((List.map_congr_left fun entry hentry => ?_).trans (List.map_id _)).symm
    have hle := DeckLine.le_of_mem_number hentry
    rw [if_neg (by omega), Nat.add_zero, id]
  · have hle := DeckLine.le_of_mem_number hentry
    rw [if_pos (by omega)]

/-- What one edit does to the lines: they say the same, and have moved by the lines that were inserted above them. -/
theorem LayoutEdit.numberedLines_eq {inserted : ℕ → ℕ} {text text' : String} (h : LayoutEdit inserted text text') :
    numberedLines text' = (numberedLines text).map fun entry => (entry.1 + inserted entry.1, entry.2) := by
  rw [numberedLines_eq_number_splitOn, numberedLines_eq_number_splitOn]
  cases h with
  | insertLine hline htext htext' =>
    rw [htext, htext', number_append_cons_of_blank (Text.trim_eq_nil hline)]
  | respaceLine hline htext htext' =>
    rw [htext, htext', number_append_cons_of_respaced hline]
    exact (List.map_id _).symm
  | carriageReturn htext htext' =>
    obtain ⟨above, line, below, hline, hbefore, hafter⟩ := exists_respaced_of_carriageReturn _ _
    rw [htext, htext', hbefore, hafter, number_append_cons_of_respaced hline]
    exact (List.map_id _).symm

/-- What any number of edits do to the lines. -/
theorem Relaid.numberedLines_eq {inserted : ℕ → ℕ} {text text' : String} (h : Relaid inserted text text') :
    numberedLines text' = (numberedLines text).map fun entry => (entry.1 + inserted entry.1, entry.2) := by
  induction h with
  | refl text => exact (List.map_id _).symm
  | step h hedit ih =>
    rw [hedit.numberedLines_eq, ih, List.map_map]
    refine List.map_congr_left fun entry _ => ?_
    rw [Function.comp_apply, Nat.add_assoc]

namespace Submission

/-- **The layout of a text does not matter.**  After any number of edits of its layout a text describes the same
submission, with the same cards in the same order, or it has the same fault, and the number of the line at fault has
grown by the number of lines that were inserted above it. -/
theorem ofText_of_relaid {inserted : ℕ → ℕ} {text text' : String} (h : Relaid inserted text text') :
    ofText text' = (ofText text).mapError (·.renumber fun n => n + inserted n) := by
  rw [ofText, h.numberedLines_eq, assemble_map (fun n => n + inserted n), ofText]

/-- A text at fault, and a text without a fault, that are laid out in another way: with a blank line at the top, an
indented heading, the cards lined up, and another end of a line. -/
theorem ofText_of_relaid_forests :
    ofText "\t\n Deck\n4 \t Forest\r\nx Island" = .error (.invalidQuantity 4 "x") ∧
      ofText "2 Forest\n3 Island\t" = .ok ⟨.ofList [(⟨"Forest"⟩, 2), (⟨"Island"⟩, 3)], .empty⟩ := by
  have hnone : ∀ c ∈ ([] : List Char), isBlank c = true := by simp
  have htab : ∀ c ∈ ['\t'], isBlank c = true := by simp [isBlank]
  have hspace : ∀ c ∈ [' '], isBlank c = true := by simp [isBlank]
  have hgap : ∀ c ∈ [' ', '\t', ' '], isBlank c = true := by simp [isBlank]
  have hquantity : ∀ c ∈ ['4'], isBlank c = false := by simp [isBlank]
  have hinsert : LayoutEdit _ "Deck\n4 Forest\nx Island" "\t\nDeck\n4 Forest\nx Island" :=
    @LayoutEdit.insertLine _ _ [] ["Deck".toList, "4 Forest".toList, "x Island".toList] _ htab (by decide +kernel)
      (by decide +kernel)
  have hindent : LayoutEdit _ "\t\nDeck\n4 Forest\nx Island" "\t\n Deck\n4 Forest\nx Island" :=
    @LayoutEdit.respaceLine _ _ [['\t']] ["4 Forest".toList, "x Island".toList] _ _
      (.start hnone hspace "Deck".toList) (by decide +kernel) (by decide +kernel)
  have hname : LayoutEdit _ "\t\n Deck\n4 Forest\nx Island" "\t\n Deck\n4 \t Forest\nx Island" :=
    @LayoutEdit.respaceLine _ _ [['\t'], " Deck".toList] ["x Island".toList] _ _
      (.afterWord hnone (List.cons_ne_nil _ _) hquantity ⟨List.cons_ne_nil _ _, hspace⟩ ⟨List.cons_ne_nil _ _, hgap⟩
        "Forest".toList) (by decide +kernel) (by decide +kernel)
  have hend : LayoutEdit _ "\t\n Deck\n4 \t Forest\nx Island" "\t\n Deck\n4 \t Forest\r\nx Island" :=
    @LayoutEdit.carriageReturn _ _ "\t\n Deck\n4 \t Forest".toList "x Island".toList (by decide +kernel)
      (by decide +kernel)
  have hforests := Relaid.step (.step (.step (.step (.refl _) hinsert) hindent) hname) hend
  have hfinish : LayoutEdit _ "2 Forest\n3 Island" "2 Forest\n3 Island\t" :=
    @LayoutEdit.respaceLine _ _ ["2 Forest".toList] [] _ _ (.finish "3 Island".toList hnone htab) (by decide +kernel)
      (by decide +kernel)
  refine ⟨(ofText_of_relaid hforests).trans ?_, (ofText_of_relaid (.step (.refl _) hfinish)).trans ?_⟩
  · decide +kernel
  · decide +kernel

end Submission

end DeckLegality
