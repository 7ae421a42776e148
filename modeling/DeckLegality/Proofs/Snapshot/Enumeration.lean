import DeckLegality.Snapshot.Listing
import Mathlib.Data.List.Nodup
import Mathlib.Data.List.Perm.Basic

/-!
# Snapshots in every order

A file keeps the cards and the sets of a snapshot one after the other, in an order that means nothing.  An enumeration
of a snapshot is a listing of it in some order, said without putting the snapshot together again: it names each known
card once, each with its sets, and all sets that exist.  Putting it together gives the snapshot, whatever the order.

* `Listing.IsEnumeration.snapshot_eq`: an enumeration of a snapshot is a listing of it.
* `Listing.lists_iff_isEnumeration`: there are no other listings of it without repetitions.
* `isEnumeration_listing`: the ascending order is one of the orders.
-/

namespace DeckLegality

/-- A list without repetitions has the elements of its set in some order. -/
theorem SortedSet.perm_toList_ofList {α : Type} [LE α] [LT α] [DecidableLT α] [Std.IsLinearOrder α]
    [Std.LawfulOrderLT α] {l : List α} (h : l.Nodup) : l.Perm (ofList l).toList :=
  (List.perm_ext_iff_of_nodup h (nodup_toList _)).mpr fun _ => mem_ofList.symm

namespace Snapshot

/-- The listing names each card of the snapshot once, in some order, its sets in some order, and the sets that exist in
some order. -/
structure Listing.IsEnumeration (l : Listing) (s : Snapshot) : Prop where
  names : (l.printings.map (·.1)).Perm s.printings.keys
  codes : ∀ e ∈ l.printings, ∃ codes, s.printings.get? e.1 = some codes ∧ e.2.Perm codes.toList
  allSets : l.allSets.Perm s.allSets.toList

namespace Listing

variable {l : Listing} {s : Snapshot}

theorem IsEnumeration.nodup (h : l.IsEnumeration s) : (l.printings.map (·.1)).Nodup :=
  h.names.nodup_iff.mpr s.printings.nodup_keys

theorem printings_snapshot : l.snapshot.printings = .ofList (l.printings.map fun e => (e.1, .ofList e.2)) := rfl

/-- The sets of a card, according to a listing without repetitions. -/
theorem get?_printings_snapshot (h : (l.printings.map (·.1)).Nodup) {n : CardName} {codes : SetCodes} :
    l.snapshot.printings.get? n = some codes ↔ ∃ e ∈ l.printings, e.1 = n ∧ .ofList e.2 = codes := by
  have hmem : ∀ p : CardName × SetCodes, p ∈ l.printings.map (fun e => (e.1, .ofList e.2)) ↔
      ∃ e ∈ l.printings, e.1 = p.1 ∧ .ofList e.2 = p.2 := fun p => by
    rw [List.mem_map]
    exact exists_congr fun e => and_congr_right fun _ => Prod.ext_iff
  rw [printings_snapshot]
  refine (SortedMap.get?_ofList_eq_some_iff fun p hp q hq hpq => ?_).trans (hmem (n, codes))
  obtain ⟨e, he, hep, hcodes⟩ := (hmem p).mp hp
  obtain ⟨e', he', hep', hcodes'⟩ := (hmem q).mp hq
  obtain rfl : e = e' := List.inj_on_of_nodup_map h he he' (hep.trans (hpq.trans hep'.symm))
  exact Prod.ext hpq (hcodes.symm.trans hcodes')

/-- **The order makes no difference.**  An enumeration of a snapshot, put together, is the snapshot. -/
theorem IsEnumeration.snapshot_eq (h : l.IsEnumeration s) : l.snapshot = s := by
  have hprintings : l.snapshot.printings = s.printings := by
    refine SortedMap.ext_get? fun n => Option.ext fun codes => ?_
    rw [get?_printings_snapshot h.nodup]
    constructor
    · rintro ⟨e, he, rfl, rfl⟩
      obtain ⟨codes, hget, hperm⟩ := h.codes e he
      rw [hget, SortedSet.ofList_eq_of_perm hperm]
    · intro hget
      obtain ⟨e, he, hen⟩ := List.mem_map.mp (h.names.mem_iff.mpr (SortedMap.mem_keys.mpr ⟨codes, hget⟩))
      obtain ⟨codes', hget', hperm⟩ := h.codes e he
      rw [hen, hget] at hget'
      refine ⟨e, he, hen, ?_⟩
      rw [SortedSet.ofList_eq_of_perm hperm, Option.some.inj hget']
  obtain ⟨printings, allSets⟩ := s
  exact congrArg₂ Snapshot.mk hprintings (SortedSet.ofList_eq_of_perm h.allSets)

/-- A listing of a snapshot without repetitions is an enumeration of it, and the other way round. -/
theorem lists_iff_isEnumeration : l.Lists s ↔ l.IsEnumeration s := by
  constructor
  · rintro ⟨hnodup, hcodes, hallSets, rfl⟩
    refine ⟨?_, fun e he => ?_, SortedSet.perm_toList_ofList hallSets⟩
    · refine (List.perm_ext_iff_of_nodup hnodup (SortedMap.nodup_keys _)).mpr fun n => ?_
      simp only [SortedMap.mem_keys, get?_printings_snapshot hnodup, List.mem_map]
      constructor
      · rintro ⟨e, he, hen⟩
        exact ⟨_, e, he, hen, rfl⟩
      · rintro ⟨-, e, he, hen, -⟩
        exact ⟨e, he, hen⟩
    · exact ⟨_, (get?_printings_snapshot hnodup).mpr ⟨e, he, rfl, rfl⟩, SortedSet.perm_toList_ofList (hcodes e he)⟩
  · intro h
    refine ⟨h.nodup, fun e he => ?_, h.allSets.nodup_iff.mpr s.allSets.nodup_toList, h.snapshot_eq⟩
    obtain ⟨codes, -, hperm⟩ := h.codes e he
    exact hperm.nodup_iff.mpr codes.nodup_toList

end Listing

/-- The ascending order is one of the orders. -/
theorem isEnumeration_listing (s : Snapshot) : s.listing.IsEnumeration s where
  names := by
    have hkeys : s.listing.printings.map (·.1) = s.printings.keys := List.map_map
    rw [hkeys]
  codes e he := by
    obtain ⟨p, hp, rfl⟩ := List.mem_map.mp he
    exact ⟨p.2, SortedMap.get?_eq_some_iff.mpr hp, .rfl⟩
  allSets := .rfl

/-! ## An example -/

/-- A snapshot of three cards with names of all kinds. -/
def polyglot : Snapshot where
  printings := .ofList [(⟨"Æther \"Vial\" \\"⟩, .ofList [⟨"DST"⟩, ⟨"MMA"⟩]), (⟨""⟩, .ofList []),
    (⟨" 日本🂡\n\x07"⟩, .ofList [⟨"MMA"⟩])]
  allSets := .ofList [⟨"DST"⟩, ⟨"MMA"⟩, ⟨"é"⟩]

/-- The same, neither in ascending order nor in the order above. -/
def polyglotListing : Listing where
  printings := [(⟨" 日本🂡\n\x07"⟩, [⟨"MMA"⟩]), (⟨"Æther \"Vial\" \\"⟩, [⟨"MMA"⟩, ⟨"DST"⟩]), (⟨""⟩, [])]
  allSets := [⟨"é"⟩, ⟨"MMA"⟩, ⟨"DST"⟩]

theorem isEnumeration_polyglotListing : polyglotListing.IsEnumeration polyglot :=
  Listing.lists_iff_isEnumeration.mp ⟨by decide +kernel, by decide +kernel, by decide +kernel, by decide +kernel⟩

end Snapshot

end DeckLegality
