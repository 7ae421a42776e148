import DeckLegality.Card
import DeckLegality.Sorted.Map

/-!
# Where cards were printed

`CardPrintings` says for each known card which sets it was printed in.  A card may be known without a printing;
that is not the same as being unknown, but neither kind of card is ever legal.
-/

namespace DeckLegality

/-- The sets that each known card was printed in. -/
abbrev CardPrintings := SortedMap CardName SetCodes

namespace CardPrintings

/-- The printings with one more set for the card `n`. -/
def addPrinting (p : CardPrintings) (n : CardName) (code : SetCode) : CardPrintings :=
  p.insert n (((p.get? n).getD ∅).insert code)

/-- The sets among `legal` that the card `n` was printed in. -/
def legalPrintings (p : CardPrintings) (n : CardName) (legal : SetCodes) : SetCodes :=
  match p.get? n with
  | some codes => codes.inter legal
  | none => ∅

/-- Whether the card `n` was printed in one of the sets `legal`. -/
def isLegal (p : CardPrintings) (n : CardName) (legal : SetCodes) : Bool :=
  match p.get? n with
  | some codes => codes.intersects legal
  | none => false

/-- The printings of those of the given cards that are known. -/
def lookup (p : CardPrintings) (names : List CardName) : CardPrintings :=
  .ofList (names.filterMap fun n => (p.get? n).map (n, ·))

/-- Every set that some card was printed in. -/
def allSets (p : CardPrintings) : SetCodes := .ofList (p.values.flatMap (·.toList))

/-- The batch knows of a card what the printings know of it. -/
theorem get?_lookup (p : CardPrintings) {names : List CardName} {n : CardName} (h : n ∈ names) :
    (p.lookup names).get? n = p.get? n := by
  have hmem : ∀ e : CardName × SetCodes,
      e ∈ names.filterMap (fun n => (p.get? n).map (n, ·)) ↔ e.1 ∈ names ∧ p.get? e.1 = some e.2 := by
    rintro ⟨m, codes⟩
    simp only [List.mem_filterMap, Option.map_eq_some_iff, Prod.mk.injEq]
    constructor
    · rintro ⟨_, hm, _, hc, rfl, rfl⟩
      exact ⟨hm, hc⟩
    · rintro ⟨hm, hc⟩
      exact ⟨m, hm, codes, hc, rfl, rfl⟩
  refine Option.ext fun codes => ?_
  rw [lookup, SortedMap.get?_ofList_eq_some_iff, hmem]
  · exact and_iff_right h
  · rintro ⟨m, c⟩ hc ⟨_, d⟩ hd rfl
    have hcd : some c = some d := ((hmem _).1 hc).2.symm.trans ((hmem _).1 hd).2
    rw [Option.some.inj hcd]

/-- A card is legal if and only if it has a legal printing. -/
theorem isLegal_iff (p : CardPrintings) (n : CardName) (legal : SetCodes) :
    p.isLegal n legal = true ↔ ∃ code, code ∈ p.legalPrintings n legal := by
  unfold isLegal legalPrintings
  cases p.get? n with
  | none => simp
  | some codes => simp [SortedSet.intersects_iff]

end CardPrintings

/-- Printings together with the sets that exist, which may be more than the printings name. -/
structure Snapshot where
  printings : CardPrintings
  allSets : SetCodes
  deriving DecidableEq, Inhabited

/-- The snapshot of some printings in which exactly the printed sets exist. -/
def Snapshot.ofPrintings (p : CardPrintings) : Snapshot := ⟨p, p.allSets⟩

end DeckLegality
