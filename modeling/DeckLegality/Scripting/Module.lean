import DeckLegality.DecklistText
import DeckLegality.Scripting.Value
import DeckLegality.Snapshot.File
import DeckLegality.Verifier

/-!
# The functions that scripts call

A script makes decks, rules and snapshots, and has decks judged and paired.  The functions here take the values
and objects that it passes, check them in the order of the parameters, and call the library.  Names that come as
text are trimmed.  Every object has a short description.
-/

namespace DeckLegality.Scripting

/-- An object that a script holds. -/
inductive Object where
  | nothing
  | deck (deck : Decklist)
  | rules (rules : FormatRules)
  | snapshot (snapshot : Snapshot)
  | pairing (pairing : Pairing)
  deriving DecidableEq

namespace Object

/-- The deck that an object is. -/
def deck? : Object → Except ArgumentFault Decklist
  | deck d => .ok d
  | _ => .error .wrongKind

/-- The rules that an object is. -/
def rules? : Object → Except ArgumentFault FormatRules
  | rules r => .ok r
  | _ => .error .wrongKind

/-- The snapshot that an object is. -/
def snapshot? : Object → Except ArgumentFault Snapshot
  | snapshot s => .ok s
  | _ => .error .wrongKind

/-- The pairing that an object is. -/
def pairing? : Object → Except ArgumentFault Pairing
  | pairing p => .ok p
  | _ => .error .wrongKind

/-- What `read` makes of an object that may be missing. -/
def optional {α : Type} (read : Object → Except ArgumentFault α) : Object → Except ArgumentFault (Option α)
  | nothing => .ok none
  | o => some <$> read o

/-- Whether two objects are equal: decks if they have the same copies, others only if they are one and the same
object, which is for the caller to say. -/
def equal (same : Bool) : Object → Object → Bool
  | deck d, deck e => d.sameCopies e
  | nothing, nothing => true
  | _, _ => same

end Object

/-! ## Descriptions -/

/-- The description of a deck. -/
def describeDeck (d : Decklist) : String := s!"Decklist(cards={d.total}, distinct={d.size})"

/-- The description of rules. -/
def describeRules (r : FormatRules) : String :=
  let maxDeck := match r.maxDeckSize with
    | some max => s!"Some({max})"
    | none => "None"
  s!"FormatRules(max_cards={r.maxCards}, min_deck_size={r.minDeckSize}, max_deck_size={maxDeck}, "
    ++ s!"min_sideboard_size={r.minSideboardSize}, max_sideboard_size={r.maxSideboardSize})"

/-- The description of a verdict. -/
def describeVerdict : Verdict → String
  | .valid => "Verdict(valid)"
  | .invalid violations => s!"Verdict(invalid, violations={violations.length})"

/-- The description of a snapshot. -/
def describeSnapshot (s : Snapshot) : String :=
  s!"PrintingSnapshot(cards={s.printings.size}, sets={s.allSets.size})"

/-- The description of a pairing. -/
def describePairing (p : Pairing) : String := s!"Assignment(cards={p.size})"

/-! ## Decks -/

/-- A deck of some entries. -/
def makeDeck (entries : Value) : Except ArgumentFault Decklist := do
  let l ← entries.entries
  return .ofList (l.map fun (name, copies) => (.ofText name, copies))

/-- A deck with more copies of a card. -/
def addCard (deck : Object) (name copies : Value) : Except ArgumentFault Decklist := do
  return (← deck.deck?).add (.ofText (← name.string)) (← copies.count)

/-- The number of copies of a card, whose name is not trimmed. -/
def countCard (deck : Object) (name : Value) : Except ArgumentFault Nat := do
  return (← deck.deck?).count ⟨← name.string⟩

/-- Whether a deck has a card, whose name is not trimmed. -/
def hasCard (deck : Object) (name : Value) : Except ArgumentFault Bool := do
  return (← deck.deck?).contains ⟨← name.string⟩

/-! ## Rules and snapshots -/

/-- Rules of a format; without exemptions the standard ones hold. -/
def makeRules (maxCards minDeck maxDeck minSide maxSide exemptions : Value) : Except ArgumentFault FormatRules := do
  let maxCards ← maxCards.count
  let minDeckSize ← minDeck.size
  let maxDeckSize ← maxDeck.optional Value.size
  let minSideboardSize ← minSide.size
  let maxSideboardSize ← maxSide.size
  let exemptions : Exemptions := match ← exemptions.optional Value.strings with
    | some names => .ofList (names.map .ofText)
    | none => .standard
  return { maxCards, minDeckSize, maxDeckSize, minSideboardSize, maxSideboardSize, exemptions }

/-- The snapshot of some printings; without a list of sets exactly the printed ones exist. -/
def snapshotOf (printings : List (String × List String)) (allSets : Option (List String)) : Snapshot :=
  let p : CardPrintings := .ofList (printings.map fun (name, codes) => (.ofText name, codesOf codes))
  match allSets with
  | some codes => ⟨p, codesOf codes⟩
  | none => .ofPrintings p

/-- A snapshot of some printings and a list of sets or none. -/
def makeSnapshot (printings allSets : Value) : Except ArgumentFault Snapshot := do
  return snapshotOf (← printings.printings) (← allSets.optional Value.strings)

/-! ## Judging and pairing -/

/-- The verdict on a deck. -/
def verify (snapshot maindeck sideboard : Object) (legal : Value) (rules : Object) :
    Except ArgumentFault Verdict := do
  let snapshot ← snapshot.snapshot?
  let maindeck ← maindeck.deck?
  let sideboard ← sideboard.optional Object.deck?
  let legal ← legal.optional Value.strings
  let rules ← rules.optional Object.rules?
  return (snapshot.verifier (rules.getD {})).verify maindeck sideboard (legal.map codesOf)

/-- The verdict on a deck, without making a snapshot first. -/
def verifyDecklist (maindeck : Object) (printings : Value) (sideboard : Object) (allSets legal : Value)
    (rules : Object) : Except ArgumentFault Verdict := do
  let maindeck ← maindeck.deck?
  let printings ← printings.printings
  let sideboard ← sideboard.optional Object.deck?
  let allSets ← allSets.optional Value.strings
  let legal ← legal.optional Value.strings
  let rules ← rules.optional Object.rules?
  return ((snapshotOf printings allSets).verifier (rules.getD {})).verify maindeck sideboard (legal.map codesOf)

/-- A pairing of the cards of a deck and a sideboard. -/
def assignUnique (snapshot maindeck sideboard : Object) (legal : Value) :
    Except ArgumentFault (Option Pairing) := do
  let snapshot ← snapshot.snapshot?
  let maindeck ← maindeck.deck?
  let sideboard ← sideboard.optional Object.deck?
  let legal ← legal.optional Value.strings
  return (snapshot.verifier {}).pairing? ⟨maindeck, sideboard.getD .empty⟩ (legal.map codesOf)

/-- A pairing of cards with given candidates, whose names and codes may be values of any kind. -/
def assignUniqueSets (candidates : List (Value × Value)) : Except ArgumentFault (Option Pairing) := do
  let l ← candidates.mapM fun (name, codes) => do
    let name ← name.string
    return (CardName.ofText name, codesOf (← codes.iterated))
  return (Candidates.ofList l).pairing?

/-- The set of a card, whose name is not trimmed. -/
def getSet (pairing : Object) (name : Value) : Except ArgumentFault (Option String) := do
  return ((← pairing.pairing?).get? ⟨← name.string⟩).map (·.text)

end DeckLegality.Scripting
