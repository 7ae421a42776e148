import DeckLegality.Proofs.Deck.Merging
import DeckLegality.Proofs.Deck.Reading

/-!
# Texts one below the other

The lines of two texts, one below the other, are those of the first text and then those of the second one.  Two things
of the upper text matter to the lower one: a heading of the main deck is none any more if something stands above it,
and once the sideboard has begun, there is no way back to the main deck.  Apart from that the decklists are read one
by one and merged.

* `Text.writtenLines_append`, `bodyLines_append`: the lines of both texts.
* `maindeckLines_append_of_forall`, `maindeckLines_append_of_exists`: to which deck they belong.
* `Submission.ofText_append`: the submission that both texts describe together.
-/

namespace DeckLegality

open Text (LowerCasing writtenLines)

/-! ## The lines of both texts -/

theorem Text.writtenLines_append (s t : List Char) :
    writtenLines (s ++ '\n' :: t) = writtenLines s ++ writtenLines t := by
  rw [writtenLines, List.splitOn_append_cons_self, List.map_append, List.filter_append]
  rfl

section Lines

variable {lower : LowerCasing} {upper below : String}

/-- The text has a heading of the sideboard. -/
def HasSideHeading (lower : LowerCasing) (text : String) : Prop :=
  ∃ line ∈ bodyLines lower text, IsHeading lower "side" line

instance (lower : LowerCasing) (text : String) : Decidable (HasSideHeading lower text) :=
  inferInstanceAs (Decidable (∃ line ∈ bodyLines lower text, IsHeading lower "side" line))

/-- The text has no heading of the main deck at its start. -/
def StartsPlainly (lower : LowerCasing) (text : String) : Prop :=
  ∀ line ∈ (writtenLines text.toList).head?, ¬ IsHeading lower "deck" line

instance (lower : LowerCasing) (text : String) : Decidable (StartsPlainly lower text) :=
  inferInstanceAs (Decidable (∀ line ∈ (writtenLines text.toList).head?, ¬ IsHeading lower "deck" line))

theorem StartsPlainly.bodyLines_eq (h : StartsPlainly lower below) :
    bodyLines lower below = writtenLines below.toList := by
  unfold bodyLines
  cases hlines : writtenLines below.toList with
  | nil => rfl
  | cons line lines =>
    have hline : ¬ IsHeading lower "deck" line := h line (by rw [hlines]; rfl)
    simp only [if_neg hline]

/-- The lines of both texts, without a heading of the main deck at the start of the upper one. -/
theorem bodyLines_append (upper : String) (h : StartsPlainly lower below) :
    bodyLines lower (upper ++ "\n" ++ below) = bodyLines lower upper ++ bodyLines lower below := by
  have hlines : writtenLines (upper ++ "\n" ++ below).toList =
      writtenLines upper.toList ++ writtenLines below.toList := by
    rw [← Text.writtenLines_append, String.toList_append, String.toList_append, List.append_assoc]
    rfl
  cases hupper : writtenLines upper.toList with
  | nil =>
    -- nothing stands above, so the lower text starts as it does by itself
    rw [hupper, List.nil_append] at hlines
    simp only [bodyLines, hlines, hupper, List.nil_append]
  | cons line lines =>
    rw [hupper, List.cons_append] at hlines
    rw [h.bodyLines_eq]
    simp only [bodyLines, hlines, hupper]
    split
    · rfl
    · rfl

variable (h : StartsPlainly lower below)
include h

/-- Without a heading of the sideboard in the upper text, the lower one goes on with the main deck. -/
theorem maindeckLines_append_of_forall (hupper : ¬ HasSideHeading lower upper) :
    maindeckLines lower (upper ++ "\n" ++ below) = maindeckLines lower upper ++ maindeckLines lower below ∧
      sideboardLines lower (upper ++ "\n" ++ below) = sideboardLines lower below := by
  have hplain : ∀ line ∈ bodyLines lower upper, decide (¬ IsHeading lower "side" line) = true := fun line hline =>
    decide_eq_true fun hside => hupper ⟨line, hline, hside⟩
  have hall : maindeckLines lower upper = bodyLines lower upper := List.takeWhile_eq_self_iff.mpr hplain
  constructor
  · rw [hall, maindeckLines, bodyLines_append upper h, List.takeWhile_append_of_pos hplain, maindeckLines]
  · rw [sideboardLines, bodyLines_append upper h, List.dropWhile_append_of_pos hplain, sideboardLines]

/-- After a heading of the sideboard in the upper text, all of the lower one belongs to the sideboard. -/
theorem maindeckLines_append_of_exists (hupper : HasSideHeading lower upper) :
    maindeckLines lower (upper ++ "\n" ++ below) = maindeckLines lower upper ∧
      sideboardLines lower (upper ++ "\n" ++ below) =
        sideboardLines lower upper ++ (maindeckLines lower below ++ sideboardLines lower below) := by
  obtain ⟨line, hline, hside⟩ := hupper
  have hheading : ¬ decide (¬ IsHeading lower "side" line) = true := by simpa using hside
  constructor
  · have hlength : ((bodyLines lower upper).takeWhile fun line => ¬ IsHeading lower "side" line).length ≠
        (bodyLines lower upper).length := by
      intro hlength
      rw [← (List.takeWhile_prefix _).eq_of_length hlength] at hline
      exact hheading (List.mem_takeWhile_imp (p := fun line => ¬ IsHeading lower "side" line) hline)
    rw [maindeckLines, bodyLines_append upper h, List.takeWhile_append, if_neg hlength, maindeckLines]
  · have hnonempty : ¬ ((bodyLines lower upper).dropWhile fun line => ¬ IsHeading lower "side" line).isEmpty = true := by
      rw [List.isEmpty_iff, List.dropWhile_eq_nil_iff]
      exact fun hall => hheading (hall line hline)
    rw [sideboardLines, bodyLines_append upper h, List.dropWhile_append, if_neg hnonempty, List.filter_append,
      maindeckLines_append_sideboardLines, sideboardLines]

end Lines

/-! ## Reading both texts -/

namespace Submission

open DeckLine (card? ofLine)

/-- **Decklists one below the other are merged.**  If two texts can be read and the lower one does not start with a
heading of the main deck, then both together can be read.  As long as there is no heading of the sideboard in the upper
text, the main deck of the lower one is added to that of the upper one; else all of the lower text goes into the
sideboard, first its main deck and then its sideboard. -/
theorem ofText_append {lower : LowerCasing} {upper below : String} {s t : Submission} (hs : ofText upper = .ok s)
    (ht : ofText below = .ok t) (hbelow : StartsPlainly lower below) :
    (¬ HasSideHeading lower upper →
      ofText (upper ++ "\n" ++ below) = .ok ⟨s.maindeck.merged t.maindeck, t.sideboard⟩) ∧
    (HasSideHeading lower upper →
      ofText (upper ++ "\n" ++ below) =
        .ok ⟨s.maindeck, (s.sideboard.merged t.maindeck).merged t.sideboard⟩) := by
  obtain ⟨hreads, rfl⟩ := (ofText_eq_ok_iff lower upper).mp hs
  obtain ⟨hreads', rfl⟩ := (ofText_eq_ok_iff lower below).mp ht
  rw [List.forall_mem_append] at hreads hreads'
  constructor
  · intro hupper
    obtain ⟨hmain, hside⟩ := maindeckLines_append_of_forall hbelow hupper
    rw [ofText_eq_ok_iff lower, hmain, hside, List.forall_mem_append, List.forall_mem_append, List.filterMap_append]
    refine ⟨⟨⟨hreads.1, hreads'.1⟩, hreads'.2⟩, ?_⟩
    rw [Decklist.merged_ofList, Decklist.ofList_append]
  · intro hupper
    obtain ⟨hmain, hside⟩ := maindeckLines_append_of_exists hbelow hupper
    rw [ofText_eq_ok_iff lower, hmain, hside, List.forall_mem_append, List.forall_mem_append, List.forall_mem_append,
      List.filterMap_append, List.filterMap_append]
    refine ⟨⟨hreads.1, hreads.2, hreads'⟩, ?_⟩
    rw [Decklist.merged_ofList, Decklist.merged_ofList, Decklist.ofList_append, Decklist.addAll_append]

/-- A text that goes on with the deck above it; with the cards of `crowdedText` its swamps are too many to count. -/
def swampsText : String := "\n4294967295 Swamp\n1 Plains\nSide\n2 Island\n"

/-- Below a heading of the sideboard, and below a text without one. -/
theorem ofText_append_swampsText :
    ofText (crowdedText ++ "\n" ++ swampsText) =
        .ok ⟨crowded.maindeck, .ofList [(⟨"Swamp"⟩, Text.maxCount), (⟨"Island"⟩, 5), (⟨"Plains"⟩, 1)]⟩ ∧
      ofText ("Deck\n3 Plains\n0 Island" ++ "\n" ++ swampsText) =
        .ok ⟨.ofList [(⟨"Plains"⟩, 4), (⟨"Swamp"⟩, Text.maxCount)], .ofList [(⟨"Island"⟩, 2)]⟩ := by
  have hcrowded : ofText crowdedText = .ok crowded := by decide +kernel
  have hplains : ofText "Deck\n3 Plains\n0 Island" = .ok ⟨.ofList [(⟨"Plains"⟩, 3)], .empty⟩ := by decide +kernel
  have hbelow : ofText swampsText =
      .ok ⟨.ofList [(⟨"Swamp"⟩, Text.maxCount), (⟨"Plains"⟩, 1)], .ofList [(⟨"Island"⟩, 2)]⟩ := by decide +kernel
  have hstart : StartsPlainly default swampsText := by decide +kernel
  have hside : HasSideHeading default crowdedText := by decide +kernel
  have hplain : ¬ HasSideHeading default "Deck\n3 Plains\n0 Island" := by decide +kernel
  refine ⟨((ofText_append hcrowded hbelow hstart).2 hside).trans ?_,
    ((ofText_append hplains hbelow hstart).1 hplain).trans ?_⟩
  · decide +kernel
  · decide +kernel

end Submission

end DeckLegality
