import DeckLegality.Json.Access
import Mathlib.Data.List.Basic
import Mathlib.Data.List.Perm.Subperm

/-!
# Records and lists, put together and taken apart

What the readers of stored values find in a record, an object or an array that was put together from known parts.

* `fields?_record`: the fields of a record, each found by its key wherever it stands.
* `fields?_of_subperm`: the fields of a record that lost some of its members.
* `HasMembers`: an object with given members, in any order and with other ones among them.
* `allFields?_of_hasMembers`, `tagged?_of_hasMembers`: its fields, and its tag.
* `members?_record`, `list?_array`: all members of an object, all items of an array.
-/

namespace DeckLegality.Json

variable {α β : Type}

theorem mapM_eq_some_map {f : α → Option β} {g : α → β} {l : List α} (h : ∀ a ∈ l, f a = some (g a)) :
    l.mapM f = some (l.map g) := by
  induction l with
  | nil => rfl
  | cons a l ih =>
    obtain ⟨ha, hl⟩ := List.forall_mem_cons.mp h
    rw [List.mapM_cons, ha, ih hl]
    rfl

theorem record_eq (members : List (String × Json)) :
    record members = object (members.map fun m => (some m.1, m.2)) := rfl

/-! ## Fields -/

theorem membersAt_cons (key : String) (m : Option String × Json) (members : List (Option String × Json)) :
    membersAt key (m :: members) = if m.1 = some key then m.2 :: membersAt key members else membersAt key members := by
  by_cases h : m.1 = some key
  · simp only [membersAt, List.filter_cons, h, decide_true, if_true, List.map_cons]
  · simp only [membersAt, List.filter_cons, h, decide_false, Bool.false_eq_true, if_false]

theorem membersAt_eq_nil {key : String} {members : List (Option String × Json)} (h : ∀ m ∈ members, m.1 ≠ some key) :
    membersAt key members = [] := by
  induction members with
  | nil => rfl
  | cons m members ih =>
    obtain ⟨hm, hmembers⟩ := List.forall_mem_cons.mp h
    rw [membersAt_cons, if_neg hm, ih hmembers]

/-- The members of a record with a key, if no key occurs twice. -/
theorem membersAt_record {members : List (String × Json)} (h : (members.map (·.1)).Nodup) (key : String) :
    membersAt key (members.map fun m => (some m.1, m.2)) = (members.lookup key).toList := by
  induction members with
  | nil => rfl
  | cons m members ih =>
    obtain ⟨k, j⟩ := m
    rw [List.map_cons, List.nodup_cons] at h
    rw [List.map_cons, membersAt_cons]
    by_cases hkey : k = key
    · subst hkey
      rw [if_pos rfl, List.lookup_cons_self, membersAt_eq_nil, Option.toList_some]
      intro m hm hmk
      obtain ⟨p, hp, rfl⟩ := List.mem_map.mp hm
      exact h.1 (List.mem_map.mpr ⟨p, hp, Option.some.inj hmk⟩)
    · rw [if_neg fun hk => hkey (Option.some.inj hk), ih h.2, List.lookup_cons, beq_false_of_ne (Ne.symm hkey)]

theorem membersAt_append (key : String) (l r : List (Option String × Json)) :
    membersAt key (l ++ r) = membersAt key l ++ membersAt key r := by
  rw [membersAt, List.filter_append, List.map_append]
  rfl

/-- The order of the members makes no difference, and neither do other members with other keys. -/
theorem membersAt_of_perm {members all extra : List (String × Json)} (hnodup : (members.map (·.1)).Nodup)
    (hperm : all.Perm (members ++ extra)) {key : String} (hextra : ∀ m ∈ extra, m.1 ≠ key) :
    membersAt key (all.map fun m => (some m.1, m.2)) = (members.lookup key).toList := by
  have hnone : membersAt key (extra.map fun m => (some m.1, m.2)) = [] := by
    refine membersAt_eq_nil fun m hm => ?_
    obtain ⟨p, hp, rfl⟩ := List.mem_map.mp hm
    exact fun hkey => hextra p hp (Option.some.inj hkey)
  have hmembers : membersAt key ((members ++ extra).map fun m => (some m.1, m.2)) = (members.lookup key).toList := by
    rw [List.map_append, membersAt_append, hnone, List.append_nil, membersAt_record hnodup]
  have hall : (membersAt key (all.map fun m => (some m.1, m.2))).Perm (members.lookup key).toList := by
    rw [← hmembers]
    exact ((hperm.map _).filter _).map _
  -- there is at most one of them, so no order is left
  cases hlookup : members.lookup key with
  | none =>
    rw [hlookup] at hall
    exact hall.eq_nil
  | some j =>
    rw [hlookup] at hall
    exact List.perm_singleton.mp hall

/-- The fields of a record that has some members, in any order, and others that nobody asks for. -/
theorem fields?_of_perm {members all extra : List (String × Json)} (hnodup : (members.map (·.1)).Nodup)
    (hperm : all.Perm (members ++ extra)) {keys : List String} (hextra : ∀ m ∈ extra, m.1 ∉ keys) :
    fields? keys (record all) = some (keys.map (members.lookup ·)) := by
  have hmembersAt : ∀ key ∈ keys, membersAt key (all.map fun m => (some m.1, m.2)) = (members.lookup key).toList :=
    fun key hkey => membersAt_of_perm hnodup hperm fun m hm heq => hextra m hm (heq ▸ hkey)
  have htexts : (all.map fun m => (some m.1, m.2)).all (·.1.isSome) = true := by
    rw [List.all_eq_true]
    intro m hm
    obtain ⟨p, -, rfl⟩ := List.mem_map.mp hm
    rfl
  have honce : keys.all (fun key => (membersAt key (all.map fun m => (some m.1, m.2))).length ≤ 1) = true := by
    rw [List.all_eq_true]
    intro key hkey
    rw [decide_eq_true_eq, hmembersAt key hkey]
    exact Option.length_toList_le
  rw [record_eq, fields?, if_pos ⟨htexts, honce⟩]
  refine congrArg some (List.map_congr_left fun key hkey => ?_)
  rw [hmembersAt key hkey]
  cases members.lookup key <;> rfl

/-- The fields of a record in which no key occurs twice. -/
theorem fields?_record {members : List (String × Json)} (h : (members.map (·.1)).Nodup) (keys : List String) :
    fields? keys (record members) = some (keys.map (members.lookup ·)) :=
  fields?_of_perm h (by rw [List.append_nil]) fun _ hm => absurd hm List.not_mem_nil

theorem lookup_of_mem {members : List (String × Json)} {m : String × Json} (hnodup : (members.map (·.1)).Nodup)
    (hm : m ∈ members) : members.lookup m.1 = some m.2 := by
  induction members with
  | nil => exact absurd hm List.not_mem_nil
  | cons p members ih =>
    obtain ⟨hp, hmembers⟩ := List.nodup_cons.mp hnodup
    rcases List.mem_cons.mp hm with rfl | hm
    · exact List.lookup_cons_self
    · have hne : m.1 ≠ p.1 := fun heq => hp (List.mem_map.mpr ⟨m, hm, heq⟩)
      rw [List.lookup_cons, beq_false_of_ne hne]
      exact ih hmembers hm

theorem nodup_keys_of_subperm {kept members : List (String × Json)} (hnodup : (members.map (·.1)).Nodup)
    (h : kept.Subperm members) : (kept.map (·.1)).Nodup := by
  obtain ⟨l, hperm, hsub⟩ := h
  exact (hperm.map _).nodup_iff.mp ((hsub.map _).nodup hnodup)

/-- What is left of the members of a record is found by its key as before. -/
theorem lookup_of_subperm {kept members : List (String × Json)} (hnodup : (members.map (·.1)).Nodup)
    (h : kept.Subperm members) {m : String × Json} (hm : m ∈ members) :
    kept.lookup m.1 = if m.1 ∈ kept.map (·.1) then some m.2 else none := by
  split
  · next hkey =>
    obtain ⟨p, hp, hpm⟩ := List.mem_map.mp hkey
    have hsame : some p.2 = some m.2 := by
      rw [← lookup_of_mem hnodup (h.subset hp), ← lookup_of_mem hnodup hm, hpm]
    rw [← hpm, lookup_of_mem (nodup_keys_of_subperm hnodup h) hp, hsame]
  · next hkey =>
    exact List.lookup_eq_none_iff.mpr fun p hp =>
      bne_iff_ne.mpr fun heq => hkey (List.mem_map.mpr ⟨p, hp, heq.symm⟩)

/-- The fields of a record that has only some of its members, in any order. -/
theorem fields?_of_subperm {kept members : List (String × Json)} (hnodup : (members.map (·.1)).Nodup)
    (h : kept.Subperm members) : fields? (members.map (·.1)) (record kept) =
      some (members.map fun m => if m.1 ∈ kept.map (·.1) then some m.2 else none) := by
  rw [fields?_record (nodup_keys_of_subperm hnodup h), List.map_map]
  exact congrArg some (List.map_congr_left fun m hm => lookup_of_subperm hnodup h hm)

/-! ## Objects with given members -/

/-- An object that has the given members, in any order, and besides them only members with other keys, with values such
as `Extra` says. -/
def HasMembers (Extra : Json → Prop) (members : List (String × Json)) (j : Json) : Prop :=
  ∃ all extra : List (String × Json), j = record all ∧ all.Perm (members ++ extra) ∧
    ∀ m ∈ extra, m.1 ∉ members.map (·.1) ∧ Extra m.2

variable {Extra : Json → Prop} {members : List (String × Json)} {j : Json}

/-- An object with the given members alone, in their order. -/
theorem hasMembers_record (Extra : Json → Prop) (members : List (String × Json)) :
    HasMembers Extra members (record members) :=
  ⟨members, [], rfl, by rw [List.append_nil], fun _ hm => absurd hm List.not_mem_nil⟩

/-- What holds of the given values and of all others that are allowed holds of all values of the object. -/
theorem HasMembers.exists_record {P : Json → Prop} (h : HasMembers Extra members j) (hmembers : ∀ m ∈ members, P m.2)
    (hextra : ∀ v, Extra v → P v) : ∃ all : List (String × Json), j = record all ∧ ∀ m ∈ all, P m.2 := by
  obtain ⟨all, extra, rfl, hperm, hother⟩ := h
  refine ⟨all, rfl, fun m hm => ?_⟩
  rcases List.mem_append.mp (hperm.mem_iff.mp hm) with hm | hm
  · exact hmembers m hm
  · exact hextra _ (hother m hm).2

/-- An object with some members has their values as its fields. -/
theorem allFields?_of_hasMembers (hnodup : (members.map (·.1)).Nodup) (h : HasMembers Extra members j) :
    allFields? (members.map (·.1)) j = some (members.map (·.2)) := by
  obtain ⟨all, extra, rfl, hperm, hextra⟩ := h
  rw [allFields?, fields?_of_perm hnodup hperm fun m hm => (hextra m hm).1]
  show ((members.map (·.1)).map (members.lookup ·)).mapM id = _
  rw [List.map_map, List.mapM_map]
  exact mapM_eq_some_map fun m hm => lookup_of_mem hnodup hm

/-- The tag of an object may stand anywhere among its members. -/
theorem tagged?_of_hasMembers {key : String} {tag : Json} (hnodup : (key :: members.map (·.1)).Nodup)
    (h : HasMembers Extra ((key, tag) :: members) j) :
    ∃ body, tagged? key j = some (tag, body) ∧ HasMembers Extra members body := by
  obtain ⟨all, extra, rfl, hperm, hextra⟩ := h
  have hother : ∀ m ∈ members ++ extra, m.1 ≠ key := by
    intro m hm
    rcases List.mem_append.mp hm with hm | hm
    · exact fun heq => (List.nodup_cons.mp hnodup).1 (List.mem_map.mpr ⟨m, hm, heq⟩)
    · exact fun heq => (hextra m hm).1 (heq ▸ List.mem_cons_self)
  have htag : membersAt key (all.map fun m => (some m.1, m.2)) = [tag] := by
    have hkeys : (((key, tag) :: members).map (·.1)).Nodup := hnodup
    rw [membersAt_of_perm hkeys hperm fun m hm => hother m (List.mem_append_right _ hm), List.lookup_cons_self]
    rfl
  refine ⟨record (all.filter (·.1 ≠ key)), ?_, _, extra, rfl, ?_, fun m hm => ?_⟩
  · rw [record_eq, tagged?]
    simp only [htag, record_eq, List.filter_map, Function.comp_def, Option.some.injEq, ne_eq]
  · have hkept : (members ++ extra).filter (·.1 ≠ key) = members ++ extra :=
      List.filter_eq_self.mpr fun m hm => decide_eq_true (hother m hm)
    have hrest := hperm.filter (·.1 ≠ key)
    rwa [List.cons_append, List.filter_cons_of_neg (by simp), hkept] at hrest
  · obtain ⟨hkey, hvalue⟩ := hextra m hm
    exact ⟨fun hmem => hkey (List.mem_cons_of_mem _ hmem), hvalue⟩

/-! ## Items and members -/

/-- All items of an array. -/
theorem list?_array {item : Json → Option β} {write : α → Json} {g : α → β} {l : List α}
    (h : ∀ a ∈ l, item (write a) = some (g a)) : list? item (array (l.map write)) = some (l.map g) := by
  rw [list?, List.mapM_map]
  exact mapM_eq_some_map h

/-- All members of an object. -/
theorem members?_record {value : Json → Option β} {k : α → String} {write : α → Json} {g : α → β} {l : List α}
    (h : ∀ a ∈ l, value (write a) = some (g a)) :
    members? value (record (l.map fun a => (k a, write a))) = some (l.map fun a => (k a, g a)) := by
  rw [record_eq, members?, List.map_map, List.mapM_map]
  refine mapM_eq_some_map fun a ha => ?_
  show (do return (← some (k a), ← value (write a))) = _
  rw [h a ha]
  rfl

end DeckLegality.Json
