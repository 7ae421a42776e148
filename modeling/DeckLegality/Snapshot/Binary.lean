import DeckLegality.Snapshot.Listing

/-!
# Snapshots as bytes

The binary form puts a length in front of everything that can vary in length.  A length takes eight bytes, the
lowest first.  A string is the number of its bytes and its UTF-8 bytes; a list is the number of its items and the
items; a snapshot is the list of its cards, each with the list of its sets, and the list of the sets that exist.

Every reader takes what it reads off the front of the bytes and gives back the rest.  Bytes after a snapshot are
left alone.
-/

namespace DeckLegality.Snapshot

namespace Binary

/-- Bytes to be read. -/
abbrev Bytes := List UInt8

/-! ## Writing -/

/-- A number as `width` bytes, the lowest first. -/
def writeNat : (width : Nat) → Nat → Bytes
  | 0, _ => []
  | width + 1, n => UInt8.ofNat n :: writeNat width (n / 256)

/-- A length, in eight bytes. -/
def writeLength (n : Nat) : Bytes := writeNat 8 n

/-- A string. -/
def writeString (s : String) : Bytes := writeLength s.utf8ByteSize ++ s.toByteArray.data.toList

/-- A list whose items are written by `item`. -/
def writeList {α : Type} (item : α → Bytes) (l : List α) : Bytes := writeLength l.length ++ l.flatMap item

/-- A list of set codes. -/
def writeCodes (codes : List SetCode) : Bytes := writeList (fun c => writeString c.text) codes

/-- A snapshot in the order of a listing. -/
def writeListing (l : Listing) : Bytes :=
  writeList (fun e => writeString e.1.text ++ writeCodes e.2) l.printings ++ writeCodes l.allSets

/-! ## Reading -/

/-- Reads a number of `width` bytes. -/
def readNat : (width : Nat) → Bytes → Option (Nat × Bytes)
  | 0, r => some (0, r)
  | _ + 1, [] => none
  | width + 1, b :: r =>
    match readNat width r with
    | some (n, r) => some (b.toNat + 256 * n, r)
    | none => none

/-- Reads a length. -/
def readLength (r : Bytes) : Option (Nat × Bytes) := readNat 8 r

/-- Reads a string, whose bytes have to be UTF-8. -/
def readString (r : Bytes) : Option (String × Bytes) :=
  match readLength r with
  | some (n, r) =>
    if n ≤ r.length then (String.fromUTF8? (r.take n).toByteArray).map fun s => (s, r.drop n) else none
  | none => none

/-- Reads `count` items, each by `item`. -/
def readItems {α : Type} (item : Bytes → Option (α × Bytes)) : (count : Nat) → Bytes → Option (List α × Bytes)
  | 0, r => some ([], r)
  | count + 1, r =>
    match item r with
    | some (a, r) =>
      match readItems item count r with
      | some (l, r) => some (a :: l, r)
      | none => none
    | none => none

/-- Reads a list whose items are read by `item`. -/
def readList {α : Type} (item : Bytes → Option (α × Bytes)) (r : Bytes) : Option (List α × Bytes) :=
  match readLength r with
  | some (n, r) => readItems item n r
  | none => none

/-- Reads a list of set codes. -/
def readCodes (r : Bytes) : Option (List SetCode × Bytes) :=
  readList (fun r => (readString r).map fun (s, r) => (⟨s⟩, r)) r

/-- Reads a card and its sets. -/
def readEntry (r : Bytes) : Option ((CardName × List SetCode) × Bytes) :=
  match readString r with
  | some (name, r) => (readCodes r).map fun (codes, r) => ((⟨name⟩, codes), r)
  | none => none

/-- Reads a snapshot and the bytes after it. -/
def readListing (r : Bytes) : Option (Listing × Bytes) :=
  match readList readEntry r with
  | some (printings, r) => (readCodes r).map fun (allSets, r) => (⟨printings, allSets⟩, r)
  | none => none

end Binary

/-- The snapshot as bytes. -/
def toBytes (s : Snapshot) : List UInt8 := Binary.writeListing s.listing

/-- The snapshot at the front of some bytes. -/
def ofBytes? (bytes : List UInt8) : Option Snapshot := (Binary.readListing bytes).map (·.1.snapshot)

end DeckLegality.Snapshot
