import DeckLegality.Text.Blank
import Mathlib.Data.List.DropRight

/-!
# Trimming

A trimmed text has no blank at either end, and a text without blanks at its ends is its own trimmed form.  Both are said
of the first and the last character, so that texts that are put together need only a look at their ends.

* `trim_eq_self_iff`: the texts that trimming leaves as they are.
* `trim_append_left`, `trim_append_right`: blanks at the ends do not matter.
* `splitWord_append`: the first word of a line that was put together from a word and more.
* `splitWord_trim_append`: the same for a line that has yet to be trimmed.
-/

namespace DeckLegality.Text

variable {s t word : List Char}

/-! ## The ends of a text -/

/-- The text has a blank neither at its start nor at its end. -/
structure IsFlush (s : List Char) : Prop where
  start : ∀ c ∈ s.head?, isBlank c = false
  finish : ∀ c ∈ s.getLast?, isBlank c = false

theorem trimStart_eq_self_iff : trimStart s = s ↔ ∀ c ∈ s.head?, isBlank c = false := by
  cases s with
  | nil => exact iff_of_true rfl fun c hc => nomatch hc
  | cons c s =>
    have hhead : (∀ d ∈ (c :: s).head?, isBlank d = false) ↔ isBlank c = false :=
      ⟨fun h => h c rfl, fun h d hd => Option.some.inj hd ▸ h⟩
    rw [hhead, trimStart, List.dropWhile_cons]
    split
    · next hc =>
      rw [hc]
      -- what is left is shorter than the text
      refine iff_of_false (fun h => ?_) Bool.noConfusion
      have hlen := (List.dropWhile_sublist isBlank (l := s)).length_le
      rw [h, List.length_cons] at hlen
      omega
    · next hc => exact iff_of_true rfl (Bool.eq_false_iff.mpr hc)

theorem trimEnd_eq_self_iff : trimEnd s = s ↔ ∀ c ∈ s.getLast?, isBlank c = false := by
  rw [trimEnd, List.reverse_eq_iff, trimStart_eq_self_iff, List.head?_reverse]

theorem head?_trimStart : ∀ c ∈ (trimStart s).head?, isBlank c = false :=
  trimStart_eq_self_iff.mp (List.dropWhile_idempotent ..)

theorem trimEnd_isPrefix (s : List Char) : trimEnd s <+: s := List.rdropWhile_prefix isBlank s

/-- A trimmed text has no blanks at its ends. -/
theorem isFlush_trim (s : List Char) : IsFlush (trim s) where
  start c hc := by
    obtain ⟨r, hr⟩ := trimEnd_isPrefix (trimStart s)
    refine head?_trimStart (s := s) c ?_
    rw [← hr]
    exact List.mem_head?_append_of_mem_head? hc
  finish := trimEnd_eq_self_iff.mp (List.rdropWhile_idempotent isBlank (trimStart s))

/-- Trimming leaves a text as it is if and only if there is no blank at its ends. -/
theorem trim_eq_self_iff : trim s = s ↔ IsFlush s := by
  refine ⟨fun h => h ▸ isFlush_trim s, fun h => ?_⟩
  rw [trim, trimStart_eq_self_iff.mpr h.start, trimEnd_eq_self_iff.mpr h.finish]

theorem mem_of_mem_trim {c : Char} (h : c ∈ trim s) : c ∈ s :=
  (List.dropWhile_subset isBlank) ((trimEnd_isPrefix _).subset h)

/-- Of two texts that are put together only the start of the first one and the end of the second one count. -/
theorem IsFlush.append (hs : ∀ c ∈ s.head?, isBlank c = false) (hne : s ≠ []) (ht : ∀ c ∈ t.getLast?, isBlank c = false)
    (hne' : t ≠ []) : IsFlush (s ++ t) where
  start := by rwa [List.head?_append_of_ne_nil _ hne]
  finish := by rwa [List.getLast?_append_of_ne_nil _ hne']

/-- A blank at the start is trimmed. -/
theorem trim_cons_of_isBlank {c : Char} (hc : isBlank c = true) (s : List Char) : trim (c :: s) = trim s := by
  rw [trim, trim, trimStart, List.dropWhile_cons_of_pos hc, trimStart]

/-- Nothing is left of blanks. -/
theorem trim_eq_nil (h : ∀ c ∈ s, isBlank c = true) : trim s = [] := by
  rw [trim, trimStart, List.dropWhile_eq_nil_iff.mpr h]
  rfl

/-- Blanks at the start are trimmed. -/
theorem trim_append_left (h : ∀ c ∈ s, isBlank c = true) (t : List Char) : trim (s ++ t) = trim t := by
  rw [trim, trim, trimStart, trimStart, List.dropWhile_append_of_pos h]

theorem trimEnd_append_right (s : List Char) (h : ∀ c ∈ t, isBlank c = true) : trimEnd (s ++ t) = trimEnd s := by
  have hreverse : ∀ c ∈ t.reverse, isBlank c = true := fun c hc => h c (List.mem_reverse.mp hc)
  rw [trimEnd, trimEnd, List.reverse_append, trimStart, List.dropWhile_append_of_pos hreverse, trimStart]

/-- Blanks at the end are trimmed. -/
theorem trim_append_right (s : List Char) (h : ∀ c ∈ t, isBlank c = true) : trim (s ++ t) = trim s := by
  rw [trim, trim, trimStart, trimStart, List.dropWhile_append]
  split
  · next hs => rw [List.isEmpty_iff.mp hs, List.dropWhile_eq_nil_iff.mpr h]
  · exact trimEnd_append_right _ h

/-- What is trimmed at the end is blank. -/
theorem exists_trimEnd_append (s : List Char) : ∃ t, (∀ c ∈ t, isBlank c = true) ∧ trimEnd s ++ t = s := by
  refine ⟨(s.reverse.takeWhile isBlank).reverse, fun c hc => ?_, ?_⟩
  · exact List.mem_takeWhile_imp (List.mem_reverse.mp hc)
  · rw [trimEnd, trimStart, ← List.reverse_append, List.takeWhile_append_dropWhile, List.reverse_reverse]

theorem trim_eq_nil_iff : trim s = [] ↔ ∀ c ∈ s, isBlank c = true := by
  refine ⟨fun h => ?_, trim_eq_nil⟩
  obtain ⟨t, ht, heq⟩ := exists_trimEnd_append (trimStart s)
  rw [← trim, h, List.nil_append] at heq
  -- all that is left after the blanks at the start is blank, so nothing is left
  have hstart : trimStart s = [] := by
    cases hs : trimStart s with
    | nil => rfl
    | cons c r =>
      have hfalse := head?_trimStart (s := s) c (by rw [hs]; rfl)
      rw [ht c (by rw [heq, hs]; exact List.mem_cons_self)] at hfalse
      exact Bool.noConfusion hfalse
  exact List.dropWhile_eq_nil_iff.mp hstart

/-! ## The first word of a line -/

/-- The first word ends at the first blank; what follows the blank is trimmed. -/
theorem splitWord_append {word : List Char} (hword : ∀ c ∈ word, isBlank c = false) {c : Char} (hc : isBlank c = true)
    (s : List Char) : splitWord (word ++ c :: s) = (word, trim s) := by
  have hpos : ∀ d ∈ word, (!isBlank d) = true := fun d hd => by rw [hword d hd]; rfl
  have hneg : ¬ (!isBlank c) = true := by rw [hc]; exact Bool.noConfusion
  rw [splitWord, List.takeWhile_append_of_pos hpos, List.dropWhile_append_of_pos hpos,
    List.takeWhile_cons_of_neg (p := (!isBlank ·)) hneg, List.dropWhile_cons_of_neg (p := (!isBlank ·)) hneg,
    List.append_nil, trim_cons_of_isBlank hc]

/-- A text without blanks is one word. -/
theorem splitWord_of_forall (h : ∀ c ∈ s, isBlank c = false) : splitWord s = (s, []) := by
  have hpos : ∀ c ∈ s, (!isBlank c) = true := fun c hc => by rw [h c hc]; rfl
  rw [splitWord, List.takeWhile_eq_self_iff.mpr hpos, List.dropWhile_eq_nil_iff.mpr hpos, trim_nil]

/-- A text is one word, or there is a blank after its first word. -/
theorem oneWord_or_exists_append (s : List Char) :
    (∀ c ∈ s, isBlank c = false) ∨
      ∃ word c rest, s = word ++ c :: rest ∧ (∀ d ∈ word, isBlank d = false) ∧ isBlank c = true := by
  induction s with
  | nil => exact .inl fun c hc => absurd hc List.not_mem_nil
  | cons c s ih =>
    cases hc : isBlank c with
    | true => exact .inr ⟨[], c, s, rfl, fun d hd => absurd hd List.not_mem_nil, hc⟩
    | false =>
      rcases ih with h | ⟨word, d, rest, rfl, hword, hd⟩
      · exact .inl (List.forall_mem_cons.mpr ⟨hc, h⟩)
      · exact .inr ⟨c :: word, d, rest, rfl, List.forall_mem_cons.mpr ⟨hc, hword⟩, hd⟩

/-- Nothing follows the first word of a trimmed line if and only if the line is one word. -/
theorem splitWord_snd_eq_nil_iff (hs : IsFlush s) : (splitWord s).2 = [] ↔ ∀ c ∈ s, isBlank c = false := by
  refine ⟨fun h => ?_, fun h => by rw [splitWord_of_forall h]⟩
  rcases oneWord_or_exists_append s with hword | ⟨word, c, rest, rfl, hword, hc⟩
  · exact hword
  · rw [splitWord_append hword hc, trim_eq_nil_iff] at h
    -- the last character would be blank
    have hblank : ∀ d ∈ c :: rest, isBlank d = true := List.forall_mem_cons.mpr ⟨hc, h⟩
    obtain ⟨d, hd⟩ : ∃ d, (c :: rest).getLast? = some d := Option.isSome_iff_exists.mp (by simp)
    have hfalse := hs.finish d (by rw [List.getLast?_append_of_ne_nil _ (List.cons_ne_nil c rest), hd]; rfl)
    rw [hblank d (List.mem_of_getLast? hd)] at hfalse
    exact Bool.noConfusion hfalse

/-- Blanks at the end belong neither to the first word nor to what follows it. -/
theorem splitWord_append_right (s : List Char) (ht : ∀ c ∈ t, isBlank c = true) :
    splitWord (s ++ t) = splitWord s := by
  rcases oneWord_or_exists_append s with h | ⟨word, c, rest, rfl, hword, hc⟩
  · cases t with
    | nil => rw [List.append_nil]
    | cons c t =>
      obtain ⟨hc, ht⟩ := List.forall_mem_cons.mp ht
      rw [splitWord_append h hc, splitWord_of_forall h, trim_eq_nil ht]
  · rw [List.append_assoc, List.cons_append, splitWord_append hword hc, splitWord_append hword hc,
      trim_append_right rest ht]

/-- The first word of a line that starts with it, and what follows it, once the line is trimmed. -/
theorem splitWord_trim_append (hne : word ≠ []) (hword : ∀ c ∈ word, isBlank c = false) {c : Char}
    (hc : isBlank c = true) (rest : List Char) : splitWord (trim (word ++ c :: rest)) = (word, trim rest) := by
  have hstart : trimStart (word ++ c :: rest) = word ++ c :: rest := by
    rw [trimStart_eq_self_iff, List.head?_append_of_ne_nil _ hne]
    exact fun d hd => hword d (List.mem_of_mem_head? hd)
  obtain ⟨t, ht, heq⟩ := exists_trimEnd_append (word ++ c :: rest)
  rw [trim, hstart, ← splitWord_append_right _ ht, heq, splitWord_append hword hc]

/-- What follows the first word is trimmed. -/
theorem isFlush_splitWord (line : List Char) : IsFlush (splitWord line).2 := isFlush_trim _

theorem mem_of_mem_splitWord {c : Char} {line : List Char} (h : c ∈ (splitWord line).2) : c ∈ line :=
  (List.dropWhile_subset _) (mem_of_mem_trim h)

end DeckLegality.Text
