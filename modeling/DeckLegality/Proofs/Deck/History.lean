import DeckLegality.Proofs.Deck.Tallies
import DeckLegality.Proofs.Json.Entries

/-!
# How decklists come about

A decklist is empty at first, or it is read from a stored text; then cards are added, one by one or many at once, and
decklists are merged with others that came about in the same way.  A `DeckHistory` is such a course of events.  All that
it leaves behind are the additions that it amounts to (`DeckHistory.AmountsTo`): those of the first decklist come before
those of the one that is merged into it, and the entries of a stored text are additions too.

Merged counts may have stopped at the largest count before, and a stored text may name a card several times or with no
copies.  None of this matters in the end: `run?_eq_some_iff` says that a decklist is the tally of the additions, with
each sum taken as a whole and stopped once, and with every card at the position that its first copy gave it.
-/

namespace DeckLegality

open Json (Lists)
open Text (maxCount)

/-! ## Courses of events -/

/-- The name of a card as it is handed over: typed by somebody, or as the name of a card already. -/
inductive GivenName where
  | typed (s : String)
  | card (n : CardName)

/-- The card that is meant.  Only what somebody typed is trimmed. -/
def GivenName.toCard : GivenName → CardName
  | typed s => .ofText s
  | card n => n

/-- How a decklist comes about. -/
inductive DeckHistory where
  | new
  | load (text : String)
  | add (h : DeckHistory) (name : GivenName) (k : ℕ)
  | extend (h : DeckHistory) (entries : List (GivenName × ℕ))
  | merge (h h' : DeckHistory)

namespace DeckHistory

/-- The entries with the cards that their names mean. -/
def additions (entries : List (GivenName × ℕ)) : List (CardName × ℕ) := entries.map fun e => (e.1.toCard, e.2)

/-- The decklist that comes about, unless some text is not that of a decklist. -/
def run? : DeckHistory → Option Decklist
  | new => some .empty
  | load text => (Json.ofText? text).bind Decklist.ofJson?
  | add h name k => h.run?.map (·.add name.toCard k)
  | extend h entries => h.run?.map (·.addAll (additions entries))
  | merge h h' => h.run?.bind fun d => h'.run?.map d.merged

/-- The additions that a history amounts to, in their order. -/
inductive AmountsTo : DeckHistory → List (CardName × ℕ) → Prop
  | new : AmountsTo new []
  | load {text : String} {j : Json} {l : List (CardName × ℕ)} (hj : Json.ofText? text = some j)
      (hl : Lists Decklist.IsEntry j l) : AmountsTo (load text) l
  | add {h : DeckHistory} {l : List (CardName × ℕ)} (hl : AmountsTo h l) (name : GivenName) (k : ℕ) :
      AmountsTo (add h name k) (l ++ [(name.toCard, k)])
  | extend {h : DeckHistory} {l : List (CardName × ℕ)} (hl : AmountsTo h l) (entries : List (GivenName × ℕ)) :
      AmountsTo (extend h entries) (l ++ additions entries)
  | merge {h h' : DeckHistory} {l l' : List (CardName × ℕ)} (hl : AmountsTo h l) (hl' : AmountsTo h' l') :
      AmountsTo (merge h h') (l ++ l')

/-- A history leaves behind what its additions, made one by one, would. -/
theorem AmountsTo.run?_eq {h : DeckHistory} {l : List (CardName × ℕ)} (hl : h.AmountsTo l) :
    h.run? = some (.ofList l) := by
  induction hl with
  | new => rfl
  | load hj hl =>
    rw [run?, hj, Option.bind_some]
    exact Decklist.ofJson?_eq_some_iff.mpr ⟨_, hl, rfl⟩
  | add _ name k ih =>
    rw [run?, ih, Option.map_some, Decklist.ofList_append]
    rfl
  | extend _ entries ih => rw [run?, ih, Option.map_some, Decklist.ofList_append]
  | merge _ _ ih ih' =>
    rw [run?, ih, ih', Option.bind_some, Option.map_some, Decklist.merged_ofList, Decklist.ofList_append]

/-- If a decklist comes about at all, then its history amounts to some additions. -/
theorem exists_amountsTo {h : DeckHistory} {d : Decklist} (hd : h.run? = some d) : ∃ l, h.AmountsTo l := by
  induction h generalizing d with
  | new => exact ⟨[], .new⟩
  | load text =>
    obtain ⟨j, hj, hread⟩ := Option.bind_eq_some_iff.mp hd
    obtain ⟨l, hl, -⟩ := Decklist.ofJson?_eq_some_iff.mp hread
    exact ⟨l, .load hj hl⟩
  | add h name k ih =>
    obtain ⟨e, he, -⟩ := Option.map_eq_some_iff.mp hd
    obtain ⟨l, hl⟩ := ih he
    exact ⟨_, hl.add name k⟩
  | extend h entries ih =>
    obtain ⟨e, he, -⟩ := Option.map_eq_some_iff.mp hd
    obtain ⟨l, hl⟩ := ih he
    exact ⟨_, hl.extend entries⟩
  | merge h h' ih ih' =>
    obtain ⟨e, he, hd⟩ := Option.bind_eq_some_iff.mp hd
    obtain ⟨e', he', -⟩ := Option.map_eq_some_iff.mp hd
    obtain ⟨l, hl⟩ := ih he
    obtain ⟨l', hl'⟩ := ih' he'
    exact ⟨_, hl.merge hl'⟩

theorem run?_eq_some_iff_exists_ofList {h : DeckHistory} {d : Decklist} :
    h.run? = some d ↔ ∃ l, h.AmountsTo l ∧ .ofList l = d := by
  constructor
  · intro hd
    obtain ⟨l, hl⟩ := exists_amountsTo hd
    exact ⟨l, hl, Option.some.inj (hl.run?_eq.symm.trans hd)⟩
  · rintro ⟨l, hl, rfl⟩
    exact hl.run?_eq

end DeckHistory

/-- **A decklist is the tally of its additions, however it came about.**  A history leaves a decklist behind if and
only if it amounts to some additions, which it does unless one of its texts is not that of a decklist, and the decklist
is then their tally. -/
theorem DeckHistory.run?_eq_some_iff {h : DeckHistory} {d : Decklist} :
    h.run? = some d ↔ ∃ l, h.AmountsTo l ∧ d.Tallies l := by
  rw [run?_eq_some_iff_exists_ofList]
  exact exists_congr fun l => and_congr_right fun _ => Decklist.tallies_iff.symm

example :
    (DeckHistory.merge
      ((DeckHistory.new.add (.typed " Dispel\t") 2).extend [(.typed "Shock", 0), (.card ⟨" Dispel"⟩, 1)])
      (.load "[[\"Shock\",4294967295],[\"Dispel\",3],[\"Shock\",1]]")).run?.map
        (fun d => (d.entries, d.index ⟨"Dispel"⟩, d.index ⟨"Shock"⟩)) =
      some ([(⟨"Dispel"⟩, 5), (⟨" Dispel"⟩, 1), (⟨"Shock"⟩, maxCount)], some 0, some 2) := by decide +kernel

end DeckLegality
