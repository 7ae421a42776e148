import DeckLegality.Card
import DeckLegality.FirstSeen.Table
import DeckLegality.Text.Decimal

/-!
# Decklists

A decklist counts copies of cards.  It remembers the order in which its cards first came in, so that whatever is
reported about them follows the list that somebody wrote, and the position of each card, by which its copies are
found.  Counts stop at 2³² - 1 instead of growing beyond it, and a card that would have no copies is not in the list
at all; both are part of the type, and so is that the positions are right (`FirstSeen.Table`).

`count` is the view of a decklist on which the rest is stated: `count_add` says what adding does to it, for the
card that is added and for every other one.  `count_eq_lookup` and `entries_add` leave the positions behind.
-/

namespace DeckLegality

open Text (maxCount)

/-- The sum of two copy counts, which stops at the largest count. -/
def addCopies (m n : Nat) : Nat := min (m + n) maxCount

/-- Cards with their numbers of copies, in the order in which the cards came in, and the position of each card. -/
structure Decklist extends FirstSeen.Table CardName Nat where
  counts : ∀ e ∈ entries, 1 ≤ e.2 ∧ e.2 ≤ maxCount

namespace Decklist

instance : Inhabited Decklist := ⟨⟨.empty, fun _ h => absurd h List.not_mem_nil⟩⟩

/-- The decklist without cards. -/
def empty : Decklist := default

/-- The distinct cards, in the order in which they came in. -/
def names (d : Decklist) : List CardName := d.entries.map (·.1)

/-- The number of distinct cards. -/
def size (d : Decklist) : Nat := d.entries.length

/-- Whether there is no card. -/
def isEmpty (d : Decklist) : Bool := d.entries.isEmpty

/-- The number of copies of all cards together. -/
def total (d : Decklist) : Nat := (d.entries.map (·.2)).foldr (· + ·) 0

/-- The number of copies of the card `n`. -/
def count (d : Decklist) (n : CardName) : Nat := (d.get? n).getD 0

/-- Whether the card `n` is in the list. -/
def contains (d : Decklist) (n : CardName) : Bool := d.toTable.contains n

/-! ## Adding copies -/

/-- The decklist with `k` more copies of the card `n`. -/
def add (d : Decklist) (n : CardName) (k : Nat) : Decklist :=
  if h : 0 < k then
    { toTable := d.upsert n (min k maxCount) (addCopies · k)
      counts := by
        rw [FirstSeen.Table.entries_upsert]
        exact FirstSeen.forall_mem_upsert (P := fun c => 1 ≤ c ∧ c ≤ maxCount)
          ⟨Nat.le_min.2 ⟨h, by decide⟩, Nat.min_le_right ..⟩
          (fun _ _ => ⟨Nat.le_min.2 ⟨by omega, by decide⟩, Nat.min_le_right ..⟩) d.counts }
  else d

/-- The decklist with the copies of a list of entries added in turn. -/
def addAll (d : Decklist) (l : List (CardName × Nat)) : Decklist := l.foldl (fun d e => d.add e.1 e.2) d

/-- The decklist of a list of entries, which may name a card more than once. -/
def ofList (l : List (CardName × Nat)) : Decklist := empty.addAll l

/-- Both decklists together; the cards of the first one come first. -/
def merged (d e : Decklist) : Decklist := d.addAll e.entries

/-- The entries by falling count; cards with equally many copies stay in order. -/
def mostCommon (d : Decklist) : List (CardName × Nat) := d.entries.mergeSort fun a b => b.2 ≤ a.2

/-- Whether two decklists have the same number of copies of every card, in whatever order: they have equally many
distinct cards, and the second one has as many copies as the first of each card of the first. -/
def sameCopies (d e : Decklist) : Bool :=
  d.size = e.size && d.entries.all fun x => e.count x.1 = x.2

/-! ## Entries -/

theorem count_eq_lookup (d : Decklist) (n : CardName) : d.count n = (FirstSeen.lookup n d.entries).getD 0 := by
  rw [count, FirstSeen.Table.get?_eq_lookup]

theorem entries_add (d : Decklist) (n : CardName) {k : Nat} (hk : 0 < k) :
    (d.add n k).entries = FirstSeen.upsert n (min k maxCount) (addCopies · k) d.entries := by
  rw [add, dif_pos hk]
  exact FirstSeen.Table.entries_upsert ..

theorem add_zero (d : Decklist) (n : CardName) : d.add n 0 = d := rfl

/-- Decklists are known by their entries. -/
theorem ext_entries {d e : Decklist} (h : d.entries = e.entries) : d = e := by
  have htable : d.toTable = e.toTable := FirstSeen.Table.ext_entries h
  cases d
  cases e
  cases htable
  rfl

instance : DecidableEq Decklist := fun d e =>
  decidable_of_iff (d.entries = e.entries) ⟨ext_entries, fun h => h ▸ rfl⟩

/-! ## Counts -/

@[simp] theorem count_empty (m : CardName) : empty.count m = 0 := rfl

theorem count_le (d : Decklist) (m : CardName) : d.count m ≤ maxCount := by
  rw [count_eq_lookup]
  cases h : FirstSeen.lookup m d.entries with
  | none => exact Nat.zero_le _
  | some c => exact (d.counts _ (FirstSeen.mem_of_lookup_eq_some h)).2

theorem count_add (d : Decklist) (n : CardName) (k : Nat) (m : CardName) :
    (d.add n k).count m = if m = n then addCopies (d.count m) k else d.count m := by
  rcases Nat.eq_zero_or_pos k with rfl | hk
  · rw [add_zero, addCopies, Nat.add_zero, Nat.min_eq_left (d.count_le m), ite_self]
  · rw [count_eq_lookup, count_eq_lookup, entries_add d n hk, FirstSeen.lookup_upsert]
    split
    · next h =>
      subst h
      cases FirstSeen.lookup m d.entries <;> simp [addCopies]
    · rfl

end Decklist

/-! ## Main deck and sideboard -/

/-- What is handed in to be judged: a main deck and a sideboard. -/
structure Submission where
  maindeck : Decklist
  sideboard : Decklist
  deriving Inhabited

instance : DecidableEq Submission := fun s t =>
  decidable_of_iff (s.maindeck = t.maindeck ∧ s.sideboard = t.sideboard) (by cases s; cases t; simp)

/-- Main deck and sideboard together. -/
def Submission.merged (s : Submission) : Decklist := s.maindeck.merged s.sideboard

end DeckLegality
