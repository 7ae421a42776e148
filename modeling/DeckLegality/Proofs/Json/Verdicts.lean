import DeckLegality.Proofs.Json.Naturals
import DeckLegality.Proofs.Json.Violations
import Mathlib.Data.List.Forall2
import Mathlib.Data.List.Nodup

/-!
# Stored verdicts are read back

A verdict is stored as an object with a tag, and the violations in it are objects with tags of their own.  Since the tag
may stand anywhere, all members of such an object are kept until it is known, also those that nobody asks for.  What is
kept must be proper and not nested too deep; the numbers of a verdict are, and so are the arrays and objects that make it
up.  Then neither the order of the members nor other members with other keys make a difference.

* `Json.IsProperTo`: what can be kept, with the depth.
* `Verdict.StoredAs`: an object that a verdict may be stored as, with its members in any order and more of them.
* `Verdict.isProperTo_of_storedAs`: what such an object is made of can be kept, if the other members can.
* `Verdict.ofJson?_of_storedAs`: such an object is read as the verdict.
-/

namespace DeckLegality

open Json (HasMembers nat record)
open Text (maxCount maxSize)

/-! ## What can be kept -/

namespace Json

/-- The value is proper, and at most `n` arrays and objects enclose one another in it. -/
structure IsProperTo (n : ℕ) (j : Json) : Prop where
  isProper : j.isProper = true
  depth_le : j.depth ≤ n

variable {n : ℕ} {j : Json}

theorem IsProperTo.mono {m : ℕ} (h : j.IsProperTo n) (hnm : n ≤ m) : j.IsProperTo m :=
  ⟨h.isProper, Nat.le_trans h.depth_le hnm⟩

theorem IsProperTo.canBeKept (h : j.IsProperTo maxDepth) : j.canBeKept = true := by
  rw [Json.canBeKept, h.isProper, decide_eq_true h.depth_le]
  rfl

theorem isProperTo_text (n : ℕ) (s : String) : (text s).IsProperTo n := ⟨rfl, Nat.zero_le n⟩

theorem isProperTo_nat (n : ℕ) {k : ℕ} (hk : k ≤ maxSize) : (nat k).IsProperTo n :=
  ⟨Numeral.isFinite_ofNat hk, Nat.zero_le n⟩

theorem IsProperTo.array {items : List Json} (h : ∀ j ∈ items, j.IsProperTo n) : (array items).IsProperTo (n + 1) := by
  have hitems : areProper items = true ∧ depthOfItems items ≤ n := by
    induction items with
    | nil => exact ⟨rfl, Nat.zero_le n⟩
    | cons j items ih =>
      obtain ⟨hj, hitems⟩ := List.forall_mem_cons.mp h
      obtain ⟨hproper, hdepth⟩ := ih hitems
      rw [areProper, depthOfItems, hj.isProper, hproper]
      exact ⟨rfl, Nat.max_le.mpr ⟨hj.depth_le, hdepth⟩⟩
  constructor
  · rw [Json.isProper, hitems.1]
  · rw [depth, Nat.add_comm]
    exact Nat.succ_le_succ hitems.2

theorem IsProperTo.record {members : List (String × Json)} (h : ∀ m ∈ members, m.2.IsProperTo n) :
    (record members).IsProperTo (n + 1) := by
  have hmembers : membersAreProper (members.map fun m => (some m.1, m.2)) = true ∧
      depthOfMembers (members.map fun m => (some m.1, m.2)) ≤ n := by
    induction members with
    | nil => exact ⟨rfl, Nat.zero_le n⟩
    | cons m members ih =>
      obtain ⟨hm, hmembers⟩ := List.forall_mem_cons.mp h
      obtain ⟨hproper, hdepth⟩ := ih hmembers
      rw [List.map_cons, membersAreProper, depthOfMembers, hm.isProper, hproper]
      exact ⟨rfl, Nat.max_le.mpr ⟨hm.depth_le, hdepth⟩⟩
  constructor
  · rw [record_eq, Json.isProper, hmembers.1]
  · rw [record_eq, depth, Nat.add_comm]
    exact Nat.succ_le_succ hmembers.2

/-- An object is proper if its members are, those that it must have and those that it may have. -/
theorem HasMembers.isProperTo {Extra : Json → Prop} {members : List (String × Json)} (h : HasMembers Extra members j)
    (hmembers : ∀ m ∈ members, m.2.IsProperTo n) (hextra : ∀ v, Extra v → v.IsProperTo n) : j.IsProperTo (n + 1) := by
  obtain ⟨all, rfl, hall⟩ := h.exists_record hmembers hextra
  exact .record hall

/-- What has some members has their values as its fields. -/
theorem HasMembers.hasFields {Extra : Json → Prop} {members : List (String × Json)}
    (hnodup : (members.map (·.1)).Nodup) (h : HasMembers Extra members j) : HasFields members j :=
  allFields?_eq_some_iff.mp (allFields?_of_hasMembers hnodup h)

theorem isNat_nat (k : ℕ) : IsNat k (nat k) := ⟨Numeral.ofNat k, rfl, Numeral.nat?_ofNat k⟩

theorem HasMembers.isWellFormed {Extra : Json → Prop} {members : List (String × Json)} (h : HasMembers Extra members j)
    (hmembers : ∀ m ∈ members, m.2.IsWellFormed) (hextra : ∀ v, Extra v → v.IsWellFormed) : j.IsWellFormed := by
  obtain ⟨all, rfl, hall⟩ := h.exists_record hmembers hextra
  exact .record hall

end Json

/-! ## Violations -/

namespace Violation

/-- The members next to the kind. -/
def fields : Violation → List (String × Json)
  | deckTooSmall min => [("min", nat min)]
  | deckTooLarge max => [("max", nat max)]
  | sideboardTooSmall min => [("min", nat min)]
  | sideboardTooLarge max => [("max", nat max)]
  | tooManyCopies card max => [("card", Json.text card.text), ("max", nat max)]
  | notLegal card => [("card", Json.text card.text)]

/-- The sizes and the limit on copies are such as can be written. -/
def NumbersFit : Violation → Prop
  | deckTooSmall size | deckTooLarge size | sideboardTooSmall size | sideboardTooLarge size => size ≤ maxSize
  | tooManyCopies _ max => max ≤ maxCount
  | notLegal _ => True

/-- The object has the kind and the fields of the violation, in any order, and besides them only members with other keys,
with values such as `Extra` says. -/
def StoredAs (Extra : Json → Prop) (w : Violation) (j : Json) : Prop :=
  HasMembers Extra (("type", Json.text w.kindName) :: w.fields) j

variable {Extra : Json → Prop} {w : Violation} {j body : Json} {n : ℕ}

theorem toJson_eq (w : Violation) : w.toJson = record (("type", Json.text w.kindName) :: w.fields) := by
  cases w <;> rfl

theorem nodup_keys (w : Violation) : ("type" :: w.fields.map (·.1)).Nodup := by
  cases w <;> simp [fields]

/-- A violation has its fields wherever they stand. -/
theorem hasBody_of_hasMembers (hw : w.NumbersFit) (h : HasMembers Extra w.fields body) : w.HasBody body := by
  have hfields : Json.HasFields w.fields body := h.hasFields (List.nodup_cons.mp w.nodup_keys).2
  cases w with
  | deckTooSmall size => exact ⟨_, hfields, Json.isNat_nat size, hw⟩
  | deckTooLarge size => exact ⟨_, hfields, Json.isNat_nat size, hw⟩
  | sideboardTooSmall size => exact ⟨_, hfields, Json.isNat_nat size, hw⟩
  | sideboardTooLarge size => exact ⟨_, hfields, Json.isNat_nat size, hw⟩
  | tooManyCopies card max => exact ⟨_, hfields, Json.isNat_nat max, hw⟩
  | notLegal card => exact hfields

/-- What a violation may be stored as is an item of it. -/
theorem isItem_of_storedAs (hw : w.NumbersFit) (h : w.StoredAs Extra j) : IsItem j w := by
  obtain ⟨body, htagged, hbody⟩ := Json.tagged?_of_hasMembers w.nodup_keys h
  exact ⟨_, body, Json.tagged?_eq_some_iff.mp htagged, .inl rfl, hasBody_of_hasMembers hw hbody⟩

/-- The members of a stored violation are strings and numbers. -/
theorem forall_mem_members {P : Json → Prop} (hw : w.NumbersFit) (htext : ∀ s, P (Json.text s))
    (hnat : ∀ k ≤ maxSize, P (nat k)) : ∀ m ∈ ("type", Json.text w.kindName) :: w.fields, P m.2 := by
  refine List.forall_mem_cons.mpr ⟨htext _, ?_⟩
  cases w with
  | deckTooSmall size => exact List.forall_mem_singleton.mpr (hnat size hw)
  | deckTooLarge size => exact List.forall_mem_singleton.mpr (hnat size hw)
  | sideboardTooSmall size => exact List.forall_mem_singleton.mpr (hnat size hw)
  | sideboardTooLarge size => exact List.forall_mem_singleton.mpr (hnat size hw)
  | tooManyCopies card max =>
    have hmax : max ≤ maxSize := Nat.le_trans hw (by decide)
    exact List.forall_mem_cons.mpr ⟨htext _, List.forall_mem_singleton.mpr (hnat max hmax)⟩
  | notLegal card => exact List.forall_mem_singleton.mpr (htext _)

theorem isProperTo_of_storedAs (hw : w.NumbersFit) (h : w.StoredAs Extra j) (hextra : ∀ v, Extra v → v.IsProperTo n) :
    j.IsProperTo (n + 1) :=
  h.isProperTo (forall_mem_members hw (Json.isProperTo_text n) fun _ => Json.isProperTo_nat n) hextra

theorem isWellFormed_of_storedAs (hw : w.NumbersFit) (h : w.StoredAs Extra j) (hextra : ∀ v, Extra v → v.IsWellFormed) :
    j.IsWellFormed :=
  h.isWellFormed (forall_mem_members hw (fun _ => .string _) fun k _ => Json.isWellFormed_nat k) hextra

theorem storedAs_toJson (Extra : Json → Prop) (w : Violation) : w.StoredAs Extra w.toJson := by
  rw [toJson_eq]
  exact Json.hasMembers_record Extra _

end Violation

/-! ## Verdicts -/

namespace Verdict

/-- The sizes and limits of all violations are such as can be written. -/
def NumbersFit (v : Verdict) : Prop := ∀ w ∈ v.violations, w.NumbersFit

/-- The object has the status of the verdict and, if there are any, its violations, one after the other and each stored
in this way itself; the members may be in any order, and besides them there may be members with other keys, with values
such as `Extra` says. -/
def StoredAs (Extra : Json → Prop) : Verdict → Json → Prop
  | valid, j => HasMembers Extra [("status", Json.text "valid")] j
  | invalid violations, j => ∃ items, List.Forall₂ (Violation.StoredAs Extra) violations items ∧
      HasMembers Extra [("status", Json.text "invalid"), ("violations", .array items)] j

variable {Extra : Json → Prop} {v : Verdict} {j : Json} {n : ℕ}

theorem storedAs_toJson (Extra : Json → Prop) (v : Verdict) : v.StoredAs Extra v.toJson := by
  cases v with
  | valid => exact Json.hasMembers_record Extra _
  | invalid violations =>
    refine ⟨violations.map (·.toJson), ?_, Json.hasMembers_record Extra _⟩
    exact List.forall₂_map_right_iff.mpr (List.forall₂_same.mpr fun w _ => w.storedAs_toJson Extra)

/-- What holds of all objects that the violations may be stored as holds of the items. -/
theorem forall_mem_items {P : Json → Prop} {violations : List Violation} {items : List Json}
    (hall : List.Forall₂ (Violation.StoredAs Extra) violations items)
    (h : ∀ w ∈ violations, ∀ item, w.StoredAs Extra item → P item) : ∀ item ∈ items, P item := by
  induction hall with
  | nil => exact fun _ hitem => absurd hitem List.not_mem_nil
  | cons hstored _ ih =>
    obtain ⟨hw, hviolations⟩ := List.forall_mem_cons.mp h
    exact List.forall_mem_cons.mpr ⟨hw _ hstored, ih hviolations⟩

/-- Three arrays and objects enclose the other members of a violation: the violation, the list and the verdict. -/
theorem isProperTo_of_storedAs (hv : v.NumbersFit) (h : v.StoredAs Extra j) (hextra : ∀ x, Extra x → x.IsProperTo n) :
    j.IsProperTo (n + 3) := by
  cases v with
  | valid =>
    have hmembers : ∀ m ∈ [("status", Json.text "valid")], m.2.IsProperTo n :=
      List.forall_mem_singleton.mpr (Json.isProperTo_text n _)
    exact (Json.HasMembers.isProperTo h hmembers hextra).mono (by omega)
  | invalid violations =>
    obtain ⟨items, hall, h⟩ := h
    have hitems : (Json.array items).IsProperTo (n + 2) :=
      .array (forall_mem_items hall fun w hw _ hitem => Violation.isProperTo_of_storedAs (hv w hw) hitem hextra)
    refine Json.HasMembers.isProperTo h (List.forall_mem_cons.mpr ⟨Json.isProperTo_text _ _, ?_⟩) fun x hx =>
      (hextra x hx).mono (by omega)
    exact List.forall_mem_singleton.mpr hitems

theorem isWellFormed_of_storedAs (hv : v.NumbersFit) (h : v.StoredAs Extra j)
    (hextra : ∀ x, Extra x → x.IsWellFormed) : j.IsWellFormed := by
  cases v with
  | valid => exact Json.HasMembers.isWellFormed h (List.forall_mem_singleton.mpr (.string _)) hextra
  | invalid violations =>
    obtain ⟨items, hall, h⟩ := h
    have hitems : (Json.array items).IsWellFormed :=
      .array (forall_mem_items hall fun w hw _ hitem => Violation.isWellFormed_of_storedAs (hv w hw) hitem hextra)
    refine Json.HasMembers.isWellFormed h (List.forall_mem_cons.mpr ⟨.string _, ?_⟩) hextra
    exact List.forall_mem_singleton.mpr hitems

/-- The items list the violations, one by one. -/
theorem lists_of_storedAs {violations : List Violation} {items : List Json} (hv : ∀ w ∈ violations, w.NumbersFit)
    (hall : List.Forall₂ (Violation.StoredAs Extra) violations items) :
    Json.Lists Violation.IsItem (.array items) violations := by
  have hitems : List.Forall₂ (fun w item => Violation.IsItem item w) violations items :=
    ((List.forall₂_and_left _ _).mpr ⟨hv, hall⟩).imp fun _ _ hw => Violation.isItem_of_storedAs hw.1 hw.2
  exact ⟨items, rfl, hitems.flip⟩

/-- **A verdict is read from every object that it may be stored as**, unless the other members are nested too deep. -/
theorem ofJson?_of_storedAs (hn : n + 3 ≤ Json.maxDepth) (hv : v.NumbersFit) (h : v.StoredAs Extra j)
    (hextra : ∀ x, Extra x → x.IsProperTo n) : ofJson? j = some v := by
  have hkept : j.canBeKept = true := ((isProperTo_of_storedAs hv h hextra).mono hn).canBeKept
  refine ofJson?_eq_some_iff.mpr ⟨hkept, ?_⟩
  cases v with
  | valid =>
    obtain ⟨body, htagged, all, -, rfl, -⟩ := Json.tagged?_of_hasMembers (by simp) h
    exact ⟨_, Json.tagged?_eq_some_iff.mp htagged, fun _ heq => nomatch heq⟩
  | invalid violations =>
    obtain ⟨items, hall, h⟩ := h
    obtain ⟨body, htagged, hbody⟩ := Json.tagged?_of_hasMembers (by simp) h
    exact ⟨body, Json.tagged?_eq_some_iff.mp htagged, _, hbody.hasFields (by simp), lists_of_storedAs hv hall⟩

/-- **A stored verdict is read back, however it is stored.**  The text that is written for a verdict is read as the
verdict.  So is every text of an object with the same members in any order, and with more of them, in the verdict and in
each of its violations, as long as their keys are not the ones of the verdict or the violation; what these other members
hold is proper and nested at most 64 deep.  There is such a text for every such object. -/
theorem read_of_storedAs (v : Verdict) (hv : v.NumbersFit) :
    (∀ Extra, v.StoredAs Extra v.toJson) ∧
    (Json.ofText? v.toJson.render).bind ofJson? = some v ∧
    (∀ text j, Json.ofText? text = some j → v.StoredAs (·.IsProperTo 64) j →
      (Json.ofText? text).bind ofJson? = some v) ∧
    ∀ j, v.StoredAs (fun x => x.IsProperTo 64 ∧ x.IsWellFormed) j →
      (Json.ofText? j.render).bind ofJson? = some v := by
  have hread : ∀ {Extra : Json → Prop} {j : Json}, (∀ x, Extra x → x.IsProperTo 64) → v.StoredAs Extra j →
      ofJson? j = some v := fun hextra hj => ofJson?_of_storedAs (by decide) hv hj hextra
  have hwritten : ∀ j, v.StoredAs (fun x => x.IsProperTo 64 ∧ x.IsWellFormed) j →
      (Json.ofText? j.render).bind ofJson? = some v := by
    intro j hj
    have hwell : j.IsWellFormed := isWellFormed_of_storedAs hv hj fun _ hx => hx.2
    rw [Json.ofText?_render_bind hwell]
    exact hread (fun _ hx => hx.1) hj
  refine ⟨v.storedAs_toJson, hwritten _ (v.storedAs_toJson _), fun text j htext hj => ?_, hwritten⟩
  rw [htext, Option.bind_some]
  exact hread (fun _ hx => hx) hj

/-- The tags stand last, the other members in another order, and there are more of them. -/
theorem read_of_storedAs_shuffled :
    (invalid [.tooManyCopies ⟨"Æther Vial"⟩ maxCount]).NumbersFit ∧
    (Json.ofText? ("\x7b\"note\":[true],\"violations\":[\x7b\"min\":[true],\"max\":4294967295," ++
      "\"card\":\"Æther Vial\",\"type\":\"too_many_copies\"\x7d],\"status\":\"invalid\"\x7d")).bind ofJson? =
        some (invalid [.tooManyCopies ⟨"Æther Vial"⟩ maxCount]) := by
  have hfit : (invalid [.tooManyCopies ⟨"Æther Vial"⟩ maxCount]).NumbersFit :=
    List.forall_mem_singleton.mpr (Nat.le_refl maxCount)
  have hother : (Json.array [.bool true]).IsProperTo 64 ∧ (Json.array [.bool true]).IsWellFormed :=
    ⟨⟨rfl, by decide⟩, .array (List.forall_mem_singleton.mpr (.bool true))⟩
  have hviolation : (Violation.tooManyCopies ⟨"Æther Vial"⟩ maxCount).StoredAs
      (fun x => x.IsProperTo 64 ∧ x.IsWellFormed)
      (record [("min", .array [.bool true]), ("max", nat maxCount), ("card", Json.text "Æther Vial"),
        ("type", Json.text "too_many_copies")]) :=
    ⟨_, [("min", .array [.bool true])], rfl, List.reverse_perm [_, _, _, _],
      List.forall_mem_singleton.mpr ⟨by decide, hother⟩⟩
  have hverdict : (invalid [.tooManyCopies ⟨"Æther Vial"⟩ maxCount]).StoredAs
      (fun x => x.IsProperTo 64 ∧ x.IsWellFormed)
      (record [("note", .array [.bool true]), ("violations", .array [record [("min", .array [.bool true]),
        ("max", nat maxCount), ("card", Json.text "Æther Vial"), ("type", Json.text "too_many_copies")]]),
        ("status", Json.text "invalid")]) :=
    ⟨_, .cons hviolation .nil, _, [("note", .array [.bool true])], rfl, List.reverse_perm [_, _, _],
      List.forall_mem_singleton.mpr ⟨by decide, hother⟩⟩
  have hread := (read_of_storedAs _ hfit).2.2.2 _ hverdict
  refine ⟨hfit, Eq.trans (congrArg (fun text => (Json.ofText? text).bind ofJson?) ?_) hread⟩
  decide +kernel

/-- Another member cannot hold any value, even a small one.  A number that is computed as infinite and a string
that is no text are not kept, so a verdict with one of them next to its status is not read. -/
theorem exists_storedAs_not_read :
    ∃ huge half : Json, Json.ofText? "1e999" = some huge ∧ Json.ofText? "\"\\ud800\"" = some half ∧
      (record [("status", Json.text "valid"), ("note", huge)]).render =
        "\x7b\"status\":\"valid\",\"note\":1e999\x7d" ∧
      ∀ x ∈ [huge, half], x.IsWellFormed ∧ x.depth = 0 ∧
        valid.StoredAs (· = x) (record [("status", Json.text "valid"), ("note", x)]) ∧
        (Json.ofText? (record [("status", Json.text "valid"), ("note", x)]).render).bind ofJson? = none := by
  have hhuge : (Json.number { whole := ['1'], exponent := some (false, ['9', '9', '9']) }).IsWellFormed := by
    refine .number ⟨List.cons_ne_nil _ _, List.forall_mem_singleton.mpr rfl, fun _ h => ?_, nofun, fun e he => ?_⟩
    · exact absurd (List.cons.inj h).1 (by decide)
    · obtain rfl := Option.some.inj he
      simp only [List.forall_mem_cons]
      exact ⟨List.cons_ne_nil _ _, rfl, rfl, rfl, nofun⟩
  have hhalf : (Json.string none).IsWellFormed := .string none
  have hhugeText : (Json.number { whole := ['1'], exponent := some (false, ['9', '9', '9']) }).render = "1e999" := by
    decide +kernel
  have hhalfText : (Json.string none).render = "\"\\ud800\"" := by decide +kernel
  have hstored : ∀ x, valid.StoredAs (· = x) (record [("status", Json.text "valid"), ("note", x)]) := fun x =>
    ⟨_, [("note", x)], rfl, List.Perm.refl _, List.forall_mem_singleton.mpr ⟨by simp, rfl⟩⟩
  refine ⟨_, _, hhugeText ▸ Json.ofText?_render_eq hhuge, hhalfText ▸ Json.ofText?_render_eq hhalf, by decide +kernel, ?_⟩
  refine List.forall_mem_cons.mpr ⟨⟨hhuge, rfl, hstored _, ?_⟩,
    List.forall_mem_singleton.mpr ⟨hhalf, rfl, hstored _, ?_⟩⟩ <;> decide +kernel

end Verdict

end DeckLegality
