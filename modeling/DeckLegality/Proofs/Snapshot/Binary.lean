import DeckLegality.Proofs.Snapshot.Enumeration
import DeckLegality.Snapshot.File
import Mathlib.Algebra.Ring.Nat
import Mathlib.Data.List.Basic
import Mathlib.Data.List.Infix

/-!
# The binary form of a snapshot

Every part of the binary form tells by itself where it ends: its reader takes the bytes that were written for it off the
front, whatever comes after them, and gives up if some of them are missing.  `TakesExactly` says both of a reader, and
passes from the parts to the whole.

* `TakesExactly.andThen`: two readers, one after the other.
* `takesExactly_length`, `takesExactly_string`, `takesExactly_list`: lengths, strings and lists.
* `takesExactly_listing`: snapshots in some order.
* `ofBytes_writeListing`: what is read of the bytes of a snapshot, of more bytes and of fewer.
-/

namespace DeckLegality

/-- The bytes of a text are UTF-8, and those of no other text. -/
theorem Text.fromUTF8?_toByteArray (s : String) : String.fromUTF8? s.toByteArray = some s := by
  rw [String.fromUTF8?, dif_pos s.isValidUTF8]
  rfl

namespace Snapshot

open Text (maxSize)

namespace Binary

variable {α β : Type}

/-! ## Readers that see the end by themselves -/

/-- The reader takes the bytes `w` off the front, whatever follows, and reads `a`.  If some of them are missing, it
reads nothing. -/
structure TakesExactly (read : Bytes → Option (α × Bytes)) (w : Bytes) (a : α) : Prop where
  append : ∀ rest, read (w ++ rest) = some (a, rest)
  short : ∀ p, p <+: w → p ≠ w → read p = none

/-- What is missing of two parts is missing of the first one, or the first one is there and it is missing of the second
one. -/
theorem short_append_cases {p u v : Bytes} (hp : p <+: u ++ v) (hne : p ≠ u ++ v) :
    (p <+: u ∧ p ≠ u) ∨ ∃ q, p = u ++ q ∧ q <+: v ∧ q ≠ v := by
  by_cases hu : u <+: p
  · obtain ⟨q, rfl⟩ := hu
    refine Or.inr ⟨q, rfl, (List.prefix_append_right_inj u).mp hp, ?_⟩
    rintro rfl
    exact hne rfl
  · refine Or.inl ⟨?_, fun h => hu (h ▸ List.prefix_rfl)⟩
    exact (List.prefix_or_prefix_of_prefix hp (List.prefix_append u v)).resolve_right hu

/-- A reader that takes nothing off the front cannot miss anything. -/
theorem takesExactly_nil {read : Bytes → Option (α × Bytes)} {a : α} (h : ∀ r, read r = some (a, r)) :
    TakesExactly read [] a where
  append := h
  short _ hp hne := absurd (List.prefix_nil.mp hp) hne

/-- Two readers, one after the other. -/
theorem TakesExactly.andThen {read : Bytes → Option (α × Bytes)} {f : α → Bytes → Option (β × Bytes)} {u v : Bytes}
    {a : α} {b : β} (h : TakesExactly read u a) (hf : TakesExactly (f a) v b) :
    TakesExactly (fun r => (read r).bind fun x => f x.1 x.2) (u ++ v) b where
  append rest := by
    rw [List.append_assoc, h.append, Option.bind_some, hf.append]
  short p hp hne := by
    rcases short_append_cases hp hne with ⟨hpu, hpne⟩ | ⟨q, rfl, hqv, hqne⟩
    · rw [h.short p hpu hpne, Option.bind_none]
    · rw [h.append, Option.bind_some, hf.short q hqv hqne]

/-- A reader whose result is made into another one. -/
theorem TakesExactly.map {read : Bytes → Option (α × Bytes)} {w : Bytes} {a : α} (h : TakesExactly read w a)
    (f : α → β) : TakesExactly (fun r => (read r).map fun x => (f x.1, x.2)) w (f a) where
  append rest := by rw [h.append, Option.map_some]
  short p hp hne := by rw [h.short p hp hne, Option.map_none]

/-! ## The parts -/

/-- A number that fits. -/
theorem takesExactly_nat {width n : Nat} (hn : n < 256 ^ width) :
    TakesExactly (readNat width) (writeNat width n) n := by
  induction width generalizing n with
  | zero =>
    obtain rfl : n = 0 := by simpa using hn
    exact takesExactly_nil fun _ => rfl
  | succ width ih =>
    have hhigh : TakesExactly (readNat width) (writeNat width (n / 256)) (n / 256) :=
      ih (Nat.div_lt_of_lt_mul (by rwa [Nat.pow_succ'] at hn))
    have hvalue : (UInt8.ofNat n).toNat + 256 * (n / 256) = n := by
      rw [UInt8.toNat_ofNat']
      omega
    constructor
    · intro rest
      rw [writeNat, List.cons_append, readNat, hhigh.append]
      simp only [hvalue]
    · -- The lowest byte is there or not; if it is, something is missing of the others.
      rintro (_ | ⟨b, p⟩) hp hne
      · rfl
      · rw [writeNat] at hp hne
        obtain ⟨rfl, htail⟩ := List.cons_prefix_cons.mp hp
        rw [readNat, hhigh.short p htail fun h => hne (congrArg _ h)]

theorem takesExactly_length {n : Nat} (hn : n ≤ maxSize) : TakesExactly readLength (writeLength n) n :=
  takesExactly_nat (lt_of_le_of_lt hn (by decide))

/-- Reads the string whose bytes are the next `n` ones. -/
def readText (n : Nat) (r : Bytes) : Option (String × Bytes) :=
  if n ≤ r.length then (String.fromUTF8? (r.take n).toByteArray).map fun s => (s, r.drop n) else none

theorem readString_eq : readString = fun r => (readLength r).bind fun x => readText x.1 x.2 := by
  funext r
  rw [readString]
  cases readLength r <;> rfl

theorem takesExactly_text (s : String) : TakesExactly (readText s.utf8ByteSize) s.toByteArray.data.toList s := by
  have hlength : s.toByteArray.data.toList.length = s.utf8ByteSize := by
    rw [Array.length_toList, ByteArray.size_data, String.size_toByteArray]
  have htext : String.fromUTF8? s.toByteArray.data.toList.toByteArray = some s := by
    have hbytes : s.toByteArray.data.toList.toByteArray = s.toByteArray :=
      ByteArray.ext (by rw [List.data_toByteArray])
    rw [hbytes, Text.fromUTF8?_toByteArray]
  constructor
  · intro rest
    have hle : s.utf8ByteSize ≤ (s.toByteArray.data.toList ++ rest).length := by
      rw [List.length_append, hlength]
      exact Nat.le_add_right _ _
    rw [readText, if_pos hle, List.take_left' hlength, List.drop_left' hlength, htext, Option.map_some]
  · intro p hp hne
    have hlt : p.length < s.utf8ByteSize := by
      rw [← hlength]
      exact lt_of_le_of_ne hp.length_le fun h => hne (hp.eq_of_length h)
    rw [readText, if_neg (Nat.not_le.mpr hlt)]

theorem takesExactly_string {s : String} (hs : s.utf8ByteSize ≤ maxSize) :
    TakesExactly readString (writeString s) s := by
  rw [readString_eq]
  exact (takesExactly_length hs).andThen (f := readText) (takesExactly_text s)

section Lists

variable {item : Bytes → Option (α × Bytes)} {write : α → Bytes} {l : List α}

theorem readItems_succ (count : Nat) : readItems item (count + 1) = fun r => (item r).bind fun x =>
    (readItems item count x.2).map fun y => (x.1 :: y.1, y.2) := by
  funext r
  rw [readItems]
  rcases item r with - | ⟨a, r⟩
  · rfl
  · dsimp only [Option.bind_some]
    cases readItems item count r <;> rfl

/-- Items whose number is known. -/
theorem takesExactly_items (h : ∀ a ∈ l, TakesExactly item (write a) a) :
    TakesExactly (readItems item l.length) (l.flatMap write) l := by
  induction l with
  | nil => exact takesExactly_nil fun _ => rfl
  | cons a l ih =>
    have htail : TakesExactly (readItems item l.length) (l.flatMap write) l :=
      ih fun b hb => h b (List.mem_cons_of_mem a hb)
    rw [List.length_cons, readItems_succ, List.flatMap_cons]
    exact (h a List.mem_cons_self).andThen (f := fun a r => (readItems item l.length r).map fun y => (a :: y.1, y.2))
      (htail.map (a :: ·))

theorem readList_eq : readList item = fun r => (readLength r).bind fun x => readItems item x.1 x.2 := by
  funext r
  rw [readList]
  cases readLength r <;> rfl

theorem takesExactly_list (hl : l.length ≤ maxSize) (h : ∀ a ∈ l, TakesExactly item (write a) a) :
    TakesExactly (readList item) (writeList write l) l := by
  rw [readList_eq]
  exact (takesExactly_length hl).andThen (takesExactly_items h)

end Lists

/-! ## Snapshots -/

/-- Set codes whose number and whose sizes can be written. -/
structure CodesFit (codes : List SetCode) : Prop where
  length : codes.length ≤ maxSize
  sizes : ∀ c ∈ codes, c.text.utf8ByteSize ≤ maxSize

instance (codes : List SetCode) : Decidable (CodesFit codes) :=
  decidable_of_iff (codes.length ≤ maxSize ∧ ∀ c ∈ codes, c.text.utf8ByteSize ≤ maxSize)
    ⟨fun h => ⟨h.1, h.2⟩, fun h => ⟨h.length, h.sizes⟩⟩

theorem CodesFit.perm {codes codes' : List SetCode} (h : CodesFit codes) (hperm : codes'.Perm codes) :
    CodesFit codes' where
  length := hperm.length_eq ▸ h.length
  sizes c hc := h.sizes c (hperm.mem_iff.mp hc)

theorem takesExactly_codes {codes : List SetCode} (h : CodesFit codes) :
    TakesExactly readCodes (writeCodes codes) codes :=
  takesExactly_list h.length fun c hc => (takesExactly_string (h.sizes c hc)).map SetCode.mk

theorem readEntry_eq : readEntry = fun r => (readString r).bind fun x =>
    (readCodes x.2).map fun y => ((⟨x.1⟩, y.1), y.2) := by
  funext r
  rw [readEntry]
  cases readString r <;> rfl

theorem takesExactly_entry {e : CardName × List SetCode} (hname : e.1.text.utf8ByteSize ≤ maxSize)
    (hcodes : CodesFit e.2) : TakesExactly readEntry (writeString e.1.text ++ writeCodes e.2) e := by
  rw [readEntry_eq]
  exact (takesExactly_string hname).andThen (f := fun s r => (readCodes r).map fun y => ((CardName.mk s, y.1), y.2))
    ((takesExactly_codes hcodes).map (e.1, ·))

theorem readListing_eq : readListing = fun r => (readList readEntry r).bind fun x =>
    (readCodes x.2).map fun y => (⟨x.1, y.1⟩, y.2) := by
  funext r
  rw [readListing]
  cases readList readEntry r <;> rfl

/-- A snapshot in some order tells by itself where it ends. -/
theorem takesExactly_listing {l : Listing} (hlength : l.printings.length ≤ maxSize)
    (hnames : ∀ e ∈ l.printings, e.1.text.utf8ByteSize ≤ maxSize) (hcodes : ∀ e ∈ l.printings, CodesFit e.2)
    (hallSets : CodesFit l.allSets) : TakesExactly readListing (writeListing l) l := by
  have hprintings : TakesExactly (readList readEntry)
      (writeList (fun e => writeString e.1.text ++ writeCodes e.2) l.printings) l.printings :=
    takesExactly_list hlength fun e he => takesExactly_entry (hnames e he) (hcodes e he)
  rw [readListing_eq]
  exact hprintings.andThen (f := fun printings r => (readCodes r).map fun y => (Listing.mk printings y.1, y.2))
    ((takesExactly_codes hallSets).map (Listing.mk l.printings))

end Binary

open Binary (CodesFit writeListing takesExactly_listing)

/-- Every length in the snapshot fits in 64 bits: the numbers of cards, of the sets of a card and of all sets, and the
sizes of the names and the codes.  Nothing that is held in memory is longer. -/
structure LengthsFit (s : Snapshot) : Prop where
  length : s.printings.toList.length ≤ maxSize
  names : ∀ e ∈ s.printings.toList, e.1.text.utf8ByteSize ≤ maxSize
  codes : ∀ e ∈ s.printings.toList, CodesFit e.2.toList
  allSets : CodesFit s.allSets.toList

instance (s : Snapshot) : Decidable s.LengthsFit :=
  decidable_of_iff (s.printings.toList.length ≤ maxSize ∧
      (∀ e ∈ s.printings.toList, e.1.text.utf8ByteSize ≤ maxSize ∧ CodesFit e.2.toList) ∧ CodesFit s.allSets.toList)
    ⟨fun h => ⟨h.1, fun e he => (h.2.1 e he).1, fun e he => (h.2.1 e he).2, h.2.2⟩,
      fun h => ⟨h.length, fun e he => ⟨h.names e he, h.codes e he⟩, h.allSets⟩⟩

theorem LengthsFit.takesExactly {s : Snapshot} (h : s.LengthsFit) {l : Listing} (hl : l.IsEnumeration s) :
    Binary.TakesExactly Binary.readListing (writeListing l) l := by
  refine takesExactly_listing ?_ (fun e he => ?_) (fun e he => ?_) (h.allSets.perm hl.allSets)
  · have hlength := hl.names.length_eq
    rw [List.length_map, SortedMap.keys, List.length_map] at hlength
    exact hlength ▸ h.length
  · obtain ⟨codes, hget, -⟩ := hl.codes e he
    exact h.names _ (SortedMap.get?_eq_some_iff.mp hget)
  · obtain ⟨codes, hget, hperm⟩ := hl.codes e he
    exact (h.codes _ (SortedMap.get?_eq_some_iff.mp hget)).perm hperm

theorem ofBytes_eq_ok {bytes rest : List UInt8} {l : Listing} (h : Binary.readListing bytes = some (l, rest)) :
    ofBytes bytes = .ok l.snapshot := by
  rw [ofBytes, ofBytes?, h]
  rfl

theorem ofBytes_eq_error {bytes : List UInt8} (h : Binary.readListing bytes = none) :
    ofBytes bytes = .error .binary := by
  rw [ofBytes, ofBytes?, h]
  rfl

theorem LengthsFit.ofBytes_append {s : Snapshot} (h : s.LengthsFit) {l : Listing} (hl : l.IsEnumeration s)
    (rest : List UInt8) : ofBytes (writeListing l ++ rest) = .ok s := by
  rw [ofBytes_eq_ok ((h.takesExactly hl).append rest), hl.snapshot_eq]

theorem LengthsFit.ofBytes_eq {s : Snapshot} (h : s.LengthsFit) {l : Listing} (hl : l.IsEnumeration s) :
    ofBytes (writeListing l) = .ok s := by
  have happend := h.ofBytes_append hl []
  rwa [List.append_nil] at happend

/-- **The binary form is read back, and only as a whole.**  In whatever order a snapshot is written in its binary form
(as it is written here, or in another order), the bytes are read back as the snapshot.  Bytes after them make no
difference, and if bytes are missing at the end, nothing is read. -/
theorem ofBytes_writeListing {s : Snapshot} (h : s.LengthsFit) :
    (∃ l, l.IsEnumeration s ∧ s.toBytes = writeListing l) ∧
      ∀ l : Listing, l.IsEnumeration s →
        ofBytes (writeListing l) = .ok s ∧ (∀ rest, ofBytes (writeListing l ++ rest) = .ok s) ∧
          ∀ p, p <+: writeListing l → p ≠ writeListing l → ofBytes p = .error .binary := by
  refine ⟨⟨s.listing, s.isEnumeration_listing, rfl⟩, fun l hl => ?_⟩
  exact ⟨h.ofBytes_eq hl, h.ofBytes_append hl, fun p hp hne => ofBytes_eq_error ((h.takesExactly hl).short p hp hne)⟩

theorem lengthsFit_polyglot : polyglot.LengthsFit := by decide +kernel

theorem ofBytes_writeListing_polyglot :
    ofBytes (writeListing polyglotListing) = .ok polyglot ∧
      ofBytes (writeListing polyglotListing ++ [0, 255]) = .ok polyglot ∧
      ofBytes (writeListing polyglotListing).dropLast = .error .binary := by
  obtain ⟨hwhole, hmore, hless⟩ := (ofBytes_writeListing lengthsFit_polyglot).2 polyglotListing
    isEnumeration_polyglotListing
  have hshorter : (writeListing polyglotListing).dropLast ≠ writeListing polyglotListing := fun h =>
    absurd (congrArg List.length h) (by decide +kernel)
  exact ⟨hwhole, hmore _, hless _ (List.dropLast_prefix _) hshorter⟩

end Snapshot

end DeckLegality
