import DeckLegality.Json.Access
import DeckLegality.Verdict

/-!
# Stored verdicts

A violation is stored as an object whose member `type` tells its kind, a verdict as one whose member `status` does.
The tag may stand anywhere in the object, so the other members are kept until it is known; for that, all of them
have to be proper and not nested too deep (`Json.canBeKept`), also those that nobody asks for.

The kind of a violation is given by its name.  Inside a verdict it may also be given by its number, counted from 0.
-/

namespace DeckLegality

open Json (nat record)

namespace Violation

/-- The names of the kinds of violations, in order. -/
def kinds : List String :=
  ["deck_too_small", "deck_too_large", "sideboard_too_small", "sideboard_too_large", "too_many_copies", "not_legal"]

/-- The violation with its kind as JSON. -/
def toJson : Violation → Json
  | deckTooSmall min => record [("type", Json.text "deck_too_small"), ("min", nat min)]
  | deckTooLarge max => record [("type", Json.text "deck_too_large"), ("max", nat max)]
  | sideboardTooSmall min => record [("type", Json.text "sideboard_too_small"), ("min", nat min)]
  | sideboardTooLarge max => record [("type", Json.text "sideboard_too_large"), ("max", nat max)]
  | tooManyCopies card max =>
    record [("type", Json.text "too_many_copies"), ("card", Json.text card.text), ("max", nat max)]
  | notLegal card => record [("type", Json.text "not_legal"), ("card", Json.text card.text)]

/-- The violation of the kind with the given number that has the fields of `body`. -/
def ofFields? (kind : Nat) (body : Json) : Option Violation :=
  let size (key : String) (make : Nat → Violation) : Option Violation := do
    let [j] ← body.allFields? [key] | none
    make <$> j.size?
  match kind with
  | 0 => size "min" deckTooSmall
  | 1 => size "max" deckTooLarge
  | 2 => size "min" sideboardTooSmall
  | 3 => size "max" sideboardTooLarge
  | 4 => do
    let [card, max] ← body.allFields? ["card", "max"] | none
    return tooManyCopies ⟨← card.text?⟩ (← max.count?)
  | 5 => do
    let [card] ← body.allFields? ["card"] | none
    return notLegal ⟨← card.text?⟩
  | _ => none

/-- Reads the name of a kind. -/
def kindByName? (tag : Json) : Option Nat := do kinds.idxOf? (← tag.text?)

/-- Reads the name or the number of a kind. -/
def kind? (tag : Json) : Option Nat := kindByName? tag <|> tag.size?

/-- Reads a stored violation that stands alone. -/
def ofJson? (j : Json) : Option Violation := do
  if !j.canBeKept then none
  let (tag, body) ← j.tagged? "type"
  ofFields? (← kindByName? tag) body

/-- Reads a stored violation inside a verdict. -/
def ofItem? (j : Json) : Option Violation := do
  let (tag, body) ← j.tagged? "type"
  ofFields? (← kind? tag) body

end Violation

namespace Verdict

/-- The verdict with its status as JSON. -/
def toJson : Verdict → Json
  | valid => record [("status", Json.text "valid")]
  | invalid violations =>
    record [("status", Json.text "invalid"), ("violations", .array (violations.map (·.toJson)))]

/-- Reads a stored verdict.  Next to the status `valid` an object may hold anything and an array nothing. -/
def ofJson? (j : Json) : Option Verdict := do
  if !j.canBeKept then none
  let (tag, body) ← j.tagged? "status"
  match ← tag.text?, body with
  | "valid", .array (_ :: _) => none
  | "valid", _ => some valid
  | "invalid", _ =>
    let [violations] ← body.allFields? ["violations"] | none
    invalid <$> violations.list? Violation.ofItem?
  | _, _ => none

end Verdict

end DeckLegality
