import DeckLegality.Printings

/-!
# Snapshots in some order

A snapshot has no order, but a file has: its cards, the sets of each card and the sets that exist come one after
the other.  A `Listing` is a snapshot in such an order.  Files are written from a listing, and a snapshot read
from a file is that of a listing, so neither hangs on the order.
-/

namespace DeckLegality

namespace Snapshot

/-- The contents of a snapshot, one after the other.  Nothing forbids repetitions. -/
structure Listing where
  printings : List (CardName × List SetCode)
  allSets : List SetCode
  deriving DecidableEq, Inhabited

/-- The snapshot in ascending order. -/
def listing (s : Snapshot) : Listing where
  printings := s.printings.toList.map fun (n, codes) => (n, codes.toList)
  allSets := s.allSets.toList

/-- The snapshot of a listing.  Of several entries for one card the last one counts. -/
def Listing.snapshot (l : Listing) : Snapshot where
  printings := .ofList (l.printings.map fun (n, codes) => (n, .ofList codes))
  allSets := .ofList l.allSets

/-- Whether a listing has the contents of a snapshot and no repetitions. -/
structure Listing.Lists (l : Listing) (s : Snapshot) : Prop where
  nodup : (l.printings.map (·.1)).Nodup
  nodupCodes : ∀ e ∈ l.printings, e.2.Nodup
  nodupAllSets : l.allSets.Nodup
  snapshot : l.snapshot = s

end Snapshot

end DeckLegality
