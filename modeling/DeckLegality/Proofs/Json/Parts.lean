import DeckLegality.Proofs.Json.Records
import Mathlib.Data.List.Basic
import Mathlib.Data.List.Forall2

/-!
# What values are made of

The readers of stored values take a JSON tree apart and look at nothing but its parts.  For each of them there is a
relation that says what the tree must look like, without a word about reading, and a lemma that the reader succeeds
exactly on such trees and gives back the part that is meant.

* `Lists`, `list?_eq_some_iff`: an array, item by item; `pair?_eq_some_iff`: an array of two.
* `text?_eq_some_iff`: a string; `IsNat`, `natUpTo?_eq_some_iff`: a whole number.
* `HasFields`, `allFields?_eq_some_iff`: a record with its fields, as an object or as an array.
* `IsTagged`, `tagged?_eq_some_iff`: a record with a tag, and what it is without the tag.
-/

namespace DeckLegality.Json

variable {α β : Type}

/-! ## Items -/

/-- An array of which each item is related to the element of a list at its place. -/
def Lists (R : Json → α → Prop) (j : Json) (l : List α) : Prop := ∃ items, j = array items ∧ List.Forall₂ R items l

theorem Lists.congr {R S : Json → α → Prop} (h : ∀ j a, R j a ↔ S j a) {j : Json} {l : List α} :
    Lists R j l ↔ Lists S j l := by
  obtain rfl : R = S := funext fun j => funext fun a => propext (h j a)
  rfl

theorem mapM_eq_some_iff {f : α → Option β} {l : List α} {r : List β} :
    l.mapM f = some r ↔ List.Forall₂ (fun a b => f a = some b) l r := by
  induction l generalizing r with
  | nil =>
    rw [List.mapM_nil, List.forall₂_nil_left_iff]
    exact Option.some_inj.trans eq_comm
  | cons a l ih =>
    rw [List.mapM_cons]
    cases ha : f a with
    | none =>
      refine iff_of_false nofun fun hall => ?_
      cases hall with
      | cons hb _ => exact absurd (ha.symm.trans hb) nofun
    | some b =>
      cases hl : l.mapM f with
      | none =>
        refine iff_of_false nofun fun hall => ?_
        cases hall with
        | cons _ hrest => exact absurd (hl.symm.trans (ih.mpr hrest)) nofun
      | some r' =>
        constructor
        · rintro ⟨⟩
          exact .cons ha (ih.mp hl)
        · intro hall
          cases hall with
          | cons hb hrest =>
            obtain rfl := Option.some.inj (ha.symm.trans hb)
            obtain rfl := Option.some.inj (hl.symm.trans (ih.mpr hrest))
            rfl

theorem list?_eq_some_iff {item : Json → Option α} {j : Json} {l : List α} :
    list? item j = some l ↔ Lists (fun j a => item j = some a) j l := by
  cases j with
  | array items =>
    show items.mapM item = some l ↔ _
    rw [mapM_eq_some_iff, Lists]
    constructor
    · exact fun hall => ⟨items, rfl, hall⟩
    · rintro ⟨_, heq, hall⟩
      cases heq
      exact hall
  | _ =>
    refine iff_of_false nofun ?_
    rintro ⟨_, heq, -⟩
    exact nomatch heq

/-- If all items are read from what they are written as, so is the list. -/
theorem list?_eq_some_iff_of_write {item : Json → Option α} {write : α → Json}
    (h : ∀ j a, item j = some a ↔ j = write a) {j : Json} {l : List α} :
    list? item j = some l ↔ j = array (l.map write) := by
  rw [list?_eq_some_iff, Lists.congr h, Lists]
  have hall : ∀ items, List.Forall₂ (fun j a => j = write a) items l ↔ items = l.map write := by
    intro items
    rw [← List.forall₂_eq_eq_eq, List.forall₂_map_right_iff]
  simp only [hall, exists_eq_right]

theorem pair?_eq_some_iff {first : Json → Option α} {second : Json → Option β} {j : Json} {p : α × β} :
    pair? first second j = some p ↔ ∃ a b, j = array [a, b] ∧ first a = some p.1 ∧ second b = some p.2 := by
  constructor
  · intro h
    unfold pair? at h
    split at h
    · next a b =>
      obtain ⟨x, hx, h⟩ := Option.bind_eq_some_iff.mp h
      obtain ⟨y, hy, h⟩ := Option.bind_eq_some_iff.mp h
      obtain rfl := Option.some.inj h
      exact ⟨a, b, rfl, hx, hy⟩
    · exact nomatch h
  · rintro ⟨a, b, rfl, ha, hb⟩
    show (do return (← first a, ← second b)) = some p
    rw [ha, hb]
    rfl

/-! ## Strings and numbers -/

theorem text?_eq_some_iff {j : Json} {s : String} : j.text? = some s ↔ j = text s := by
  cases j with
  | string value =>
    show value = some s ↔ string value = string (some s)
    rw [string.injEq]
  | _ => exact iff_of_false nofun nofun

/-- A string that is read as a value of some kind is the one that this value stands for. -/
theorem map_text?_eq_some_iff {make : String → α} {a : α} {s : String} (h : ∀ s', make s' = a ↔ s' = s) {j : Json} :
    j.text?.map make = some a ↔ j = text s := by
  rw [Option.map_eq_some_iff]
  constructor
  · rintro ⟨s', hs', hmake⟩
    obtain rfl := (h s').mp hmake
    exact text?_eq_some_iff.mp hs'
  · exact fun hj => ⟨s, text?_eq_some_iff.mpr hj, (h s).mpr rfl⟩

/-- The value is the whole number `n`, written in digits alone. -/
def IsNat (n : ℕ) (j : Json) : Prop := ∃ k : Numeral, j = number k ∧ k.nat? = some n

theorem natUpTo?_eq_some_iff {limit n : ℕ} {j : Json} : natUpTo? limit j = some n ↔ IsNat n j ∧ n ≤ limit := by
  cases j with
  | number k =>
    rw [natUpTo?, Option.filter_eq_some_iff, decide_eq_true_iff]
    refine and_congr_left' ⟨fun hk => ⟨k, rfl, hk⟩, ?_⟩
    rintro ⟨_, heq, hk⟩
    cases heq
    exact hk
  | _ =>
    refine iff_of_false nofun ?_
    rintro ⟨⟨_, heq, -⟩, -⟩
    exact nomatch heq

/-! ## Members -/

/-- Among the members there is one with the key and the value `v`, and `rest` are the others, none of which has the
key. -/
def HoldsOnce (key : String) (v : Json) (members rest : List (Option String × Json)) : Prop :=
  ∃ before after, members = before ++ (some key, v) :: after ∧ rest = before ++ after ∧ ∀ m ∈ rest, m.1 ≠ some key

/-- A key that occurs once is found with its value, and without it the others are left. -/
theorem holdsOnce_iff {key : String} {v : Json} {members rest : List (Option String × Json)} :
    HoldsOnce key v members rest ↔ membersAt key members = [v] ∧ members.filter (·.1 ≠ some key) = rest := by
  have hfilter_eq : ∀ {before after : List (Option String × Json)}, (∀ m ∈ before ++ after, m.1 ≠ some key) →
      (before ++ (some key, v) :: after).filter (·.1 ≠ some key) = before ++ after := by
    intro before after h
    rw [List.filter_append, List.filter_cons_of_neg (by simp), ← List.filter_append]
    exact List.filter_eq_self.mpr fun m hm => decide_eq_true (h m hm)
  constructor
  · rintro ⟨before, after, rfl, rfl, hrest⟩
    obtain ⟨hbefore, hafter⟩ := List.forall_mem_append.mp hrest
    refine ⟨?_, hfilter_eq hrest⟩
    rw [membersAt_append, membersAt_cons, if_pos rfl, membersAt_eq_nil hbefore, membersAt_eq_nil hafter, List.nil_append]
  · rintro ⟨honce, rfl⟩
    obtain ⟨⟨key', v'⟩, hfilter, rfl⟩ := List.map_eq_singleton_iff.mp honce
    obtain ⟨before, after, rfl, hbefore, hkey, hafter⟩ := List.filter_eq_cons_iff.mp hfilter
    obtain rfl : key' = some key := of_decide_eq_true hkey
    have hrest : ∀ m ∈ before ++ after, m.1 ≠ some key := by
      refine List.forall_mem_append.mpr ⟨fun m hm heq => hbefore m hm (decide_eq_true heq), fun m hm heq => ?_⟩
      exact List.filter_eq_nil_iff.mp hafter m hm (decide_eq_true heq)
    rw [hfilter_eq hrest]
    exact ⟨before, after, rfl, rfl, hrest⟩

/-! ## Fields -/

/-- A record with the given keys and values: an object whose keys are all text and that has each of the keys once, with its
value, or an array of the values in their order. -/
inductive HasFields (fields : List (String × Json)) : Json → Prop
  | object {members : List (Option String × Json)} (text : ∀ m ∈ members, m.1 ≠ none)
    (once : ∀ f ∈ fields, ∃ rest, HoldsOnce f.1 f.2 members rest) : HasFields fields (.object members)
  | array : HasFields fields (.array (fields.map (·.2)))

theorem mapM_id_eq_some_iff {l : List (Option α)} {r : List α} : l.mapM id = some r ↔ l = r.map some := by
  rw [mapM_eq_some_iff, ← List.forall₂_eq_eq_eq, List.forall₂_map_right_iff]
  rfl

/-- If no key has a second member, and the first members are those that are expected, then each key has just the member that
is expected, and the other way round. -/
theorem forall_membersAt_eq_singleton_iff {fields : List (String × Json)} {members : List (Option String × Json)} :
    ((fields.map (·.1)).all (fun key => (membersAt key members).length ≤ 1) = true ∧
        (fields.map (·.1)).map (fun key => (membersAt key members).head?) = (fields.map (·.2)).map some) ↔
      ∀ f ∈ fields, membersAt f.1 members = [f.2] := by
  rw [List.map_map, List.map_map, List.map_inj_left, List.all_map, List.all_eq_true, ← forall₂_and]
  refine forall₂_congr fun f _ => ?_
  simp only [Function.comp_apply, decide_eq_true_eq]
  cases membersAt f.1 members with
  | nil => simp
  | cons v l => simp [List.length_eq_zero_iff, and_comm]

/-- No field of an array is missing if there are as many items as fields. -/
theorem map_some_append_replicate_eq_iff {items values : List Json} {k : ℕ} (hk : items.length + k = values.length) :
    items.map some ++ List.replicate k none = values.map some ↔ items = values := by
  constructor
  · intro h
    have hzero : k = 0 := by
      by_contra hne
      have hnone : none ∈ values.map some := h ▸ List.mem_append_right _ (List.mem_replicate.mpr ⟨hne, rfl⟩)
      obtain ⟨_, -, heq⟩ := List.mem_map.mp hnone
      exact nomatch heq
    rw [hzero, List.replicate_zero, List.append_nil] at h
    exact List.map_inj_right (fun _ _ => Option.some.inj) |>.mp h
  · rintro rfl
    rw [Nat.add_eq_left.mp hk, List.replicate_zero, List.append_nil]

/-- The fields of a record are read, and none of them is missing, if and only if the record has them. -/
theorem allFields?_eq_some_iff {fields : List (String × Json)} {j : Json} :
    allFields? (fields.map (·.1)) j = some (fields.map (·.2)) ↔ HasFields fields j := by
  have hbind : allFields? (fields.map (·.1)) j = some (fields.map (·.2)) ↔
      fields? (fields.map (·.1)) j = some ((fields.map (·.2)).map some) := by
    refine Option.bind_eq_some_iff.trans ?_
    simp only [mapM_id_eq_some_iff, exists_eq_right]
  rw [hbind]
  cases j with
  | object members =>
    refine Option.ite_none_right_eq_some.trans ?_
    rw [Option.some_inj, and_assoc, forall_membersAt_eq_singleton_iff, List.all_eq_true]
    constructor
    · rintro ⟨htext, honce⟩
      refine .object (fun m hm => Option.isSome_iff_ne_none.mp (htext m hm)) fun f hf => ?_
      exact ⟨_, holdsOnce_iff.mpr ⟨honce f hf, rfl⟩⟩
    · rintro ⟨htext, honce⟩
      refine ⟨fun m hm => Option.isSome_iff_ne_none.mpr (htext m hm), fun f hf => ?_⟩
      obtain ⟨rest, hrest⟩ := honce f hf
      exact (holdsOnce_iff.mp hrest).1
  | array items =>
    -- an array may be shorter than the list of keys, but then some field is missing
    refine Option.ite_none_right_eq_some.trans ?_
    rw [Option.some_inj, List.length_map]
    constructor
    · rintro ⟨hle, heq⟩
      have hlength : items.length + (fields.length - items.length) = (fields.map (·.2)).length := by
        rw [List.length_map]
        exact Nat.add_sub_cancel' hle
      rw [(map_some_append_replicate_eq_iff hlength).mp heq]
      exact .array
    · rintro ⟨⟩
      rw [List.length_map]
      refine ⟨Nat.le_refl _, (map_some_append_replicate_eq_iff ?_).mpr rfl⟩
      rw [Nat.sub_self, Nat.add_zero]
  | _ => exact iff_of_false nofun nofun

variable {j : Json} {f : Json → Option α} {a : α}

/-- To read a record with one field is to read its field. -/
theorem bind_allFields?_one {key : String} :
    (do
      let [v] ← j.allFields? [key] | none
      f v) = some a ↔ ∃ v, HasFields [(key, v)] j ∧ f v = some a := by
  constructor
  · intro h
    obtain ⟨values, hvalues, h⟩ := Option.bind_eq_some_iff.mp h
    split at h
    · next v => exact ⟨v, allFields?_eq_some_iff.mp hvalues, h⟩
    · exact nomatch h
  · rintro ⟨v, hv, h⟩
    have hfields : j.allFields? [key] = some [v] := allFields?_eq_some_iff.mpr hv
    rw [hfields]
    exact h

/-- To read a record with two fields is to read both of them. -/
theorem bind_allFields?_two {key key' : String} {f : Json → Json → Option α} :
    (do
      let [v, v'] ← j.allFields? [key, key'] | none
      f v v') = some a ↔ ∃ v v', HasFields [(key, v), (key', v')] j ∧ f v v' = some a := by
  constructor
  · intro h
    obtain ⟨values, hvalues, h⟩ := Option.bind_eq_some_iff.mp h
    split at h
    · next v v' =>
      have hfields : HasFields [(key, v), (key', v')] j := allFields?_eq_some_iff.mp hvalues
      exact ⟨v, v', hfields, h⟩
    · exact nomatch h
  · rintro ⟨v, v', hv, h⟩
    have hfields : j.allFields? [key, key'] = some [v, v'] := allFields?_eq_some_iff.mpr hv
    rw [hfields]
    exact h

/-! ## Tags -/

/-- A tagged record, and what it is without its tag: an object that has the key of the tag once, anywhere among its
members, or an array with the tag in front. -/
inductive IsTagged (key : String) (tag : Json) : Json → Json → Prop
  | object {members rest : List (Option String × Json)} (once : HoldsOnce key tag members rest) :
    IsTagged key tag (.object members) (.object rest)
  | array {rest : List Json} : IsTagged key tag (.array (tag :: rest)) (.array rest)

theorem tagged?_eq_some_iff {key : String} {tag body : Json} :
    tagged? key j = some (tag, body) ↔ IsTagged key tag j body := by
  constructor
  · intro h
    unfold tagged? at h
    split at h
    · next members =>
      split at h
      · next honce =>
        obtain ⟨rfl, rfl⟩ := Prod.mk.inj (Option.some.inj h)
        exact .object (holdsOnce_iff.mpr ⟨honce, rfl⟩)
      · exact nomatch h
    · obtain ⟨rfl, rfl⟩ := Prod.mk.inj (Option.some.inj h)
      exact .array
    · exact nomatch h
  · intro h
    cases h with
    | object once =>
      obtain ⟨honce, rfl⟩ := holdsOnce_iff.mp once
      rw [tagged?, honce]
    | array => rfl

/-- To read a tagged record is to read its tag and the rest. -/
theorem bind_tagged? {key : String} {f : Json × Json → Option α} :
    (tagged? key j).bind f = some a ↔ ∃ tag body, IsTagged key tag j body ∧ f (tag, body) = some a := by
  simp only [Option.bind_eq_some_iff, Prod.exists, tagged?_eq_some_iff]

end DeckLegality.Json
