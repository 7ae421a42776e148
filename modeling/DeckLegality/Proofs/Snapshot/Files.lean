import DeckLegality.Proofs.Json.Records
import DeckLegality.Proofs.Json.RoundTrip
import DeckLegality.Proofs.Snapshot.Binary

/-!
# Snapshots in files

A snapshot that is written as JSON, in whatever order, is read back from the text, and blanks around the text make no
difference.  A file is read in the format that its path calls for, which is the one it was stored in; so the file at a
path gives the snapshot that was stored there.

* `Listing.ofJson?_toJson`: the snapshot of a listing, taken from its JSON tree.
* `ofJsonText_render`: the snapshot, read from its JSON text and from its file.
-/

namespace DeckLegality.Snapshot

open Json (IsBlank list?_array members?_record)

namespace Listing

/-! ## The JSON tree -/

/-- There are no numbers in a snapshot. -/
theorem isWellFormed_toJson (l : Listing) : l.toJson.IsWellFormed := by
  have hcodes : ∀ codes : List SetCode, (Json.array (codes.map (·.toJson))).IsWellFormed :=
    fun codes => .list fun _ _ => .string _
  refine .object fun m hm => ?_
  rcases List.mem_cons.mp hm with rfl | hm
  · refine .object fun m hm => ?_
    obtain ⟨p, hp, rfl⟩ := List.mem_map.mp hm
    obtain ⟨e, -, rfl⟩ := List.mem_map.mp hp
    exact hcodes e.2
  · rw [List.mem_singleton.mp hm]
    exact hcodes l.allSets

theorem ofJson?_codes (codes : List SetCode) :
    SetCodes.ofJson? (.array (codes.map (·.toJson))) = some (.ofList codes) := by
  have hitems : Json.list? SetCode.ofJson? (.array (codes.map (·.toJson))) = some (codes.map id) :=
    list?_array fun _ _ => rfl
  rw [SetCodes.ofJson?, hitems, List.map_id, Option.map_some]

theorem ofJson?_printings (printings : List (CardName × List SetCode)) :
    CardPrintings.ofJson? (.record (printings.map fun e => (e.1.text, .array (e.2.map (·.toJson))))) =
      some (.ofList (printings.map fun e => (e.1, .ofList e.2))) := by
  have hmembers := members?_record (k := fun e : CardName × List SetCode => e.1.text) (l := printings)
    fun e _ => ofJson?_codes e.2
  rw [CardPrintings.ofJson?, hmembers, Option.map_some, List.map_map]
  rfl

/-- The JSON tree of a listing keeps its snapshot. -/
theorem ofJson?_toJson (l : Listing) : ofJson? l.toJson = some l.snapshot := by
  have hkeys : (["printings", "all_sets"] : List String).Nodup := by decide
  have hfields : l.toJson.allFields? ["printings", "all_sets"] =
      some [.record (l.printings.map fun e => (e.1.text, .array (e.2.map (·.toJson)))),
        .array (l.allSets.map (·.toJson))] := by
    rw [Json.allFields?, toJson, Json.fields?_record]
    · rfl
    · exact hkeys
  simp only [ofJson?, hfields, ofJson?_printings, ofJson?_codes, Option.bind_eq_bind, Option.bind_some]
  rfl

end Listing

/-! ## Texts and files -/

/-- The characters of a text, from its bytes. -/
theorem source_toUTF8 (s : String) : Json.source s.toUTF8 = s.toList.map some := by
  rw [Json.source, String.toUTF8_eq_toByteArray, Text.fromUTF8?_toByteArray]

theorem ofJsonText_eq_ok {text : String} {l : Listing} (h : Json.ofText? text = some l.toJson) :
    ofJsonText text = .ok l.snapshot := by
  rw [ofJsonText, h, Option.bind_some, l.ofJson?_toJson]

/-- A file of text is read as the text. -/
theorem decode_toUTF8 (text : String) : decode text.toUTF8 .json = ofJsonText text := by
  rw [decode, source_toUTF8]
  rfl

/-- What keeps the snapshot of a listing, written in its order. -/
def Listing.encode (l : Listing) : SnapshotFormat → ByteArray
  | .json => l.toJson.render.toUTF8
  | .binary => (Binary.writeListing l).toByteArray

theorem encode_listing (s : Snapshot) (format : SnapshotFormat) : s.encode format = s.listing.encode format := by
  cases format <;> rfl

theorem Listing.IsEnumeration.ofJsonText_blanks {s : Snapshot} {l : Listing} (hl : l.IsEnumeration s)
    (front back : String) (hfront : ∀ c ∈ front.toList, IsBlank c) (hback : ∀ c ∈ back.toList, IsBlank c) :
    ofJsonText (front ++ l.toJson.render ++ back) = .ok s := by
  rw [ofJsonText_eq_ok (Json.ofText?_render l.isWellFormed_toJson hfront hback), hl.snapshot_eq]

theorem Listing.IsEnumeration.ofJsonText_eq {s : Snapshot} {l : Listing} (hl : l.IsEnumeration s) :
    ofJsonText l.toJson.render = .ok s := by
  rw [ofJsonText_eq_ok (Json.ofText?_render_eq l.isWellFormed_toJson), hl.snapshot_eq]

/-- A file keeps the snapshot that was stored in it, in either format. -/
theorem decode_encode {s : Snapshot} {l : Listing} (hl : l.IsEnumeration s) {format : SnapshotFormat}
    (h : format = .binary → s.LengthsFit) : decode (l.encode format) format = .ok s := by
  cases format with
  | json => exact (decode_toUTF8 _).trans hl.ofJsonText_eq
  | binary =>
    have hbytes : (Binary.writeListing l).toByteArray.data.toList = Binary.writeListing l := by
      rw [List.data_toByteArray]
    show ofBytes (Binary.writeListing l).toByteArray.data.toList = .ok s
    rw [hbytes, (h rfl).ofBytes_eq hl]

/-- **A snapshot is read back from its JSON, and from its file.**  In whatever order a snapshot is written as JSON (as
it is written here, or in another order), it is read back from the text, and from the text with blanks around it, also
in a file.  The binary form, in an order of its own, gives the same.  Whatever the path of its file, what is stored in
the file is read back as the snapshot; only the binary form needs the lengths to fit. -/
theorem ofJsonText_render {s : Snapshot} :
    (s.listing.IsEnumeration s ∧ s.toJson = s.listing.toJson ∧
        ∀ path, s.toFile path = s.listing.encode (.ofPath path)) ∧
      ∀ l : Listing, l.IsEnumeration s →
        (∀ front back : String, (∀ c ∈ front.toList, IsBlank c) → (∀ c ∈ back.toList, IsBlank c) →
          ofJsonText (front ++ l.toJson.render ++ back) = .ok s ∧
            decode (front ++ l.toJson.render ++ back).toUTF8 .json = .ok s) ∧
        (s.LengthsFit → ∀ l' : Listing, l'.IsEnumeration s →
          ofBytes (Binary.writeListing l') = ofJsonText l.toJson.render) ∧
        ∀ path, (SnapshotFormat.ofPath path = .binary → s.LengthsFit) →
          ofFile path (.ok (l.encode (.ofPath path))) = .ok s := by
  refine ⟨⟨s.isEnumeration_listing, rfl, fun path => s.encode_listing _⟩, fun l hl => ⟨?_, ?_, ?_⟩⟩
  · intro front back hfront hback
    have htext := hl.ofJsonText_blanks front back hfront hback
    exact ⟨htext, (decode_toUTF8 _).trans htext⟩
  · intro hfit l' hl'
    rw [hfit.ofBytes_eq hl', hl.ofJsonText_eq]
  · intro path hfit
    exact decode_encode hl hfit

/-- The three cards again, in both formats. -/
theorem ofJsonText_render_polyglot :
    ofJsonText (" \r\n" ++ polyglotListing.toJson.render ++ "\t") = .ok polyglot ∧
      decode (" \r\n" ++ polyglotListing.toJson.render ++ "\t").toUTF8 .json = .ok polyglot ∧
      ofBytes polyglot.toBytes = ofJsonText polyglotListing.toJson.render ∧
      ofFile "sets/legal.Json" (.ok (polyglotListing.encode (.ofPath "sets/legal.Json"))) = .ok polyglot ∧
      ofFile ".json" (.ok (polyglot.toFile ".json")) = .ok polyglot := by
  obtain ⟨⟨hascending, -, -⟩, hall⟩ := ofJsonText_render (s := polyglot)
  obtain ⟨hblanks, hbinary, hfile⟩ := hall polyglotListing isEnumeration_polyglotListing
  obtain ⟨-, -, hascendingFile⟩ := hall _ hascending
  obtain ⟨htext, hdecode⟩ := hblanks " \r\n" "\t" (by simp [IsBlank]) (by simp [IsBlank])
  exact ⟨htext, hdecode, hbinary lengthsFit_polyglot _ hascending, hfile "sets/legal.Json" fun _ => lengthsFit_polyglot,
    hascendingFile ".json" fun _ => lengthsFit_polyglot⟩

end DeckLegality.Snapshot
