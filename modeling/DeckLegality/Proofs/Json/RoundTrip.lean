import DeckLegality.Proofs.Json.Tokens

/-!
# What is written is read back

A JSON tree whose numbers are well formed is read back from the text that is written for it, with any blanks around it.
The bound on the steps of the readers never matters: every step that goes deeper or further has taken a character.

* `ReadsBack`: a value that is read back wherever it stands.
* `readsBack_array`, `readsBack_object`: a value whose parts are read back is.
* `read?_write`, `ofText?_render`: a whole source, a whole text.
-/

namespace DeckLegality.Json

/-! ## Blanks -/

/-- The blanks of JSON. -/
def IsBlank (c : Char) : Prop := c = ' ' ∨ c = '\t' ∨ c = '\n' ∨ c = '\r'

instance (c : Char) : Decidable (IsBlank c) := inferInstanceAs (Decidable (_ ∨ _))

theorem skipBlanks_cons {c : Char} (hc : ¬IsBlank c) (r : Source) : skipBlanks (some c :: r) = some c :: r := by
  rw [skipBlanks]
  exact if_neg hc

theorem skipBlanks_append {blanks : List Char} (h : ∀ c ∈ blanks, IsBlank c) (r : Source) :
    skipBlanks (blanks.map some ++ r) = skipBlanks r := by
  induction blanks with
  | nil => rfl
  | cons c blanks ih =>
    obtain ⟨hc, htail⟩ := List.forall_mem_cons.mp h
    rw [List.map_cons, List.cons_append, skipBlanks]
    exact (if_pos hc).trans (ih htail)

theorem readValue_blanks {blanks : List Char} (h : ∀ c ∈ blanks, IsBlank c) (steps : Nat) (r : Source) :
    readValue steps (blanks.map some ++ r) = readValue steps r := by
  cases steps with
  | zero => rw [readValue, readValue]
  | succ steps => rw [readValue, readValue, skipBlanks_append h]

/-! ## Values -/

/-- The numbers in the value are well formed. -/
inductive IsWellFormed : Json → Prop where
  | null : IsWellFormed null
  | bool (b : Bool) : IsWellFormed (bool b)
  | number {n : Numeral} (h : n.IsWellFormed) : IsWellFormed (number n)
  | string (s : Option String) : IsWellFormed (string s)
  | array {items : List Json} (h : ∀ j ∈ items, IsWellFormed j) : IsWellFormed (array items)
  | object {members : List (Option String × Json)} (h : ∀ m ∈ members, IsWellFormed m.2) : IsWellFormed (object members)

theorem IsWellFormed.list {α : Type} {write : α → Json} {l : List α} (h : ∀ a ∈ l, (write a).IsWellFormed) :
    (Json.array (l.map write)).IsWellFormed :=
  .array (List.forall_mem_map.mpr h)

theorem IsWellFormed.record {members : List (String × Json)} (h : ∀ m ∈ members, m.2.IsWellFormed) :
    (Json.record members).IsWellFormed :=
  .object (List.forall_mem_map.mpr h)

theorem IsWellFormed.pair {a b : Json} (ha : a.IsWellFormed) (hb : b.IsWellFormed) :
    (Json.array [a, b]).IsWellFormed := by
  refine .array fun j hj => ?_
  rcases List.mem_pair.mp hj with rfl | rfl
  · exact ha
  · exact hb

/-- The value is taken off the front of a source, whatever follows that is not more of a number, and read as it was. -/
def ReadsBack (j : Json) : Prop :=
  ∀ (steps : Nat) (rest : Source), j.write.length ≤ steps → EndsNumber rest →
    readValue steps (j.write.map some ++ rest) = some (j, rest)

/-- Something is always written, so there is always a step to take. -/
theorem readsBack_of_step {j : Json} (hwritten : j.write ≠ [])
    (h : ∀ (steps : Nat) (rest : Source), j.write.length ≤ steps + 1 → EndsNumber rest →
      readValue (steps + 1) (j.write.map some ++ rest) = some (j, rest)) : ReadsBack j := by
  intro steps rest hsteps hrest
  cases steps with
  | zero => exact absurd (List.length_eq_zero_iff.mp (Nat.le_zero.mp hsteps)) hwritten
  | succ steps => exact h steps rest hsteps hrest

theorem readsBack_null : ReadsBack null := by
  refine readsBack_of_step (List.cons_ne_nil _ _) fun steps rest _ _ => ?_
  rw [readValue]
  rfl

theorem readsBack_bool (b : Bool) : ReadsBack (bool b) := by
  cases b with
  | false =>
    refine readsBack_of_step (List.cons_ne_nil _ _) fun steps rest _ _ => ?_
    rw [readValue]
    rfl
  | true =>
    refine readsBack_of_step (List.cons_ne_nil _ _) fun steps rest _ _ => ?_
    rw [readValue]
    rfl

/-- A value that starts with a minus sign or a digit is a number. -/
theorem readValue_number {c : Char} (hc : c = '-' ∨ Text.isDigit c = true) (steps : Nat) (r : Source) :
    readValue (steps + 1) (some c :: r) = (readNumeral (some c :: r)).map fun x => (number x.1, x.2) := by
  have hstart : ∀ d : Char, ¬(d = '-' ∨ Text.isDigit d = true) → ∀ tail, some c :: r ≠ some d :: tail := by
    rintro d hd tail h
    exact hd (Option.some.inj (List.cons.inj h).1 ▸ hc)
  have hblank : ¬IsBlank c := by
    rintro (rfl | rfl | rfl | rfl) <;> exact absurd hc (by decide)
  rw [readValue, skipBlanks_cons hblank]
  split
  · rename_i h
    exact absurd h (hstart 'n' (by decide) _)
  · rename_i h
    exact absurd h (hstart 't' (by decide) _)
  · rename_i h
    exact absurd h (hstart 'f' (by decide) _)
  · rename_i h
    exact absurd h (hstart '"' (by decide) _)
  · rename_i h
    exact absurd h (hstart '[' (by decide) _)
  · rename_i h
    exact absurd h (hstart '\x7b' (by decide) _)
  · rfl

theorem readsBack_number {n : Numeral} (hn : n.IsWellFormed) : ReadsBack (number n) := by
  obtain ⟨c, tail, hwrite, hc⟩ := exists_writeNumeral_eq_cons hn
  have hnumber : (number n).write = c :: tail := by rw [write, hwrite]
  refine readsBack_of_step (hnumber ▸ List.cons_ne_nil _ _) fun steps rest _ hrest => ?_
  have hread := readNumeral_writeNumeral hn hrest
  rw [hwrite, List.map_cons, List.cons_append] at hread
  rw [hnumber, List.map_cons, List.cons_append, readValue_number hc, hread, Option.map_some]

theorem readsBack_string (s : Option String) : ReadsBack (string s) := by
  have hwritten : (string s).write ≠ [] := by cases s <;> exact List.cons_ne_nil _ _
  refine readsBack_of_step hwritten fun steps rest _ _ => ?_
  obtain ⟨body, hbody, hread⟩ := readString_writeString s rest
  rw [write, hbody, readValue]
  show (readString {} body).map _ = _
  rw [hread, Option.map_some]

/-- What is written for a value starts with a character that is neither blank nor the end of an array. -/
theorem exists_write_eq_cons {j : Json} (hj : j.IsWellFormed) :
    ∃ c tail, j.write = c :: tail ∧ ¬IsBlank c ∧ c ≠ ']' := by
  cases hj with
  | null => exact ⟨_, _, rfl, by decide, by decide⟩
  | bool b => cases b <;> exact ⟨_, _, rfl, by decide, by decide⟩
  | number h =>
    obtain ⟨c, tail, hwrite, hc⟩ := exists_writeNumeral_eq_cons h
    refine ⟨c, tail, hwrite, ?_, ?_⟩
    · rintro (rfl | rfl | rfl | rfl) <;> exact absurd hc (by decide)
    · rintro rfl
      exact absurd hc (by decide)
  | string s => cases s <;> exact ⟨_, _, rfl, by decide, by decide⟩
  | @array items => cases items <;> exact ⟨_, _, rfl, by decide, by decide⟩
  | @object members => cases members <;> exact ⟨_, _, rfl, by decide, by decide⟩

/-! ## Arrays -/

theorem endsNumber_writeItems (items : List Json) (rest : Source) :
    EndsNumber ((writeItems items).map some ++ rest) := by
  cases items <;> exact endsNumber_cons (by decide) (by decide) (by decide) (by decide) _

theorem readItems_append {items : List Json} {j : Json} (h : ∀ x ∈ j :: items, ReadsBack x) {steps : Nat}
    (hsteps : j.write.length + (writeItems items).length ≤ steps) (before : List Json) (rest : Source) :
    readItems steps before (j.write.map some ++ ((writeItems items).map some ++ rest)) =
      some (before.reverse ++ j :: items, rest) := by
  -- Each item takes one step more than its value does.  The comma or the bracket after it has paid for that step.
  induction items generalizing j steps before with
  | nil =>
    obtain ⟨steps, rfl⟩ := Nat.exists_eq_add_of_le' (Nat.le_trans (Nat.le_add_left 1 _) hsteps)
    rw [readItems, h j List.mem_cons_self steps _ (Nat.le_of_succ_le_succ hsteps) (endsNumber_writeItems [] rest)]
    show some ((j :: before).reverse, rest) = _
    rw [List.reverse_cons]
  | cons k items ih =>
    have hlength : (writeItems (k :: items)).length = k.write.length + (writeItems items).length + 1 := by
      rw [writeItems, List.cons_append, List.length_cons, List.length_append]
    obtain ⟨steps, rfl⟩ : ∃ n, steps = n + 1 := Nat.exists_eq_add_of_le' (by omega)
    have hwritten : (writeItems (k :: items)).map some ++ rest =
        some ',' :: (k.write.map some ++ ((writeItems items).map some ++ rest)) := by
      simp only [writeItems, List.map_cons, List.map_append, List.cons_append, List.append_assoc]
    rw [readItems, h j List.mem_cons_self steps _ (by omega) (endsNumber_writeItems _ rest), hwritten]
    show readItems steps (j :: before) (k.write.map some ++ ((writeItems items).map some ++ rest)) = _
    rw [ih (fun x hx => h x (List.mem_cons_of_mem j hx)) (by omega), List.reverse_cons, List.append_assoc,
      List.singleton_append]

/-- An array that does not end at once has items. -/
theorem readValue_items {c : Char} (hblank : ¬IsBlank c) (hend : c ≠ ']') (steps : Nat) (r : Source) :
    readValue (steps + 1) (some '[' :: some c :: r) =
      (readItems steps [] (some c :: r)).map fun x => (array x.1, x.2) := by
  rw [readValue, skipBlanks_cons (by decide)]
  simp only [skipBlanks_cons hblank]
  split
  · rename_i h
    exact absurd (Option.some.inj (List.cons.inj h).1) hend
  · rfl

/-- An array is read back if its items are. -/
theorem readsBack_array {items : List Json} (hitems : ∀ j ∈ items, j.IsWellFormed)
    (h : ∀ j ∈ items, ReadsBack j) : ReadsBack (array items) := by
  cases items with
  | nil =>
    refine readsBack_of_step (List.cons_ne_nil _ _) fun steps rest _ _ => ?_
    rw [readValue]
    rfl
  | cons j items =>
    refine readsBack_of_step (List.cons_ne_nil _ _) fun steps rest hsteps _ => ?_
    have hbound : j.write.length + (writeItems items).length ≤ steps := by
      rw [write, List.cons_append, List.length_cons, List.length_append] at hsteps
      exact Nat.le_of_succ_le_succ hsteps
    have hwritten : (write (array (j :: items))).map some ++ rest =
        some '[' :: (j.write.map some ++ ((writeItems items).map some ++ rest)) := by
      simp only [write, List.map_cons, List.map_append, List.cons_append, List.append_assoc]
    have hread := readItems_append h hbound [] rest
    obtain ⟨c, tail, hstart, hblank, hend⟩ := exists_write_eq_cons (hitems j List.mem_cons_self)
    rw [hstart, List.map_cons, List.cons_append] at hread
    rw [hwritten, hstart, List.map_cons, List.cons_append, readValue_items hblank hend, hread, Option.map_some]
    rfl

/-! ## Objects -/

theorem readKey_append (key : Option String) (r : Source) :
    readKey ((writeString key).map some ++ some ':' :: r) = some (key, r) := by
  obtain ⟨body, hbody, hread⟩ := readString_writeString key (some ':' :: r)
  rw [hbody, readKey, skipBlanks_cons (by decide)]
  simp only [hread, skipBlanks_cons (by decide : ¬IsBlank ':')]

theorem endsNumber_writeMembers (members : List (Option String × Json)) (rest : Source) :
    EndsNumber ((writeMembers members).map some ++ rest) := by
  rcases members with - | ⟨⟨key, j⟩, members⟩ <;>
    exact endsNumber_cons (by decide) (by decide) (by decide) (by decide) _

theorem readMembers_append {members : List (Option String × Json)} {m : Option String × Json}
    (h : ∀ x ∈ m :: members, ReadsBack x.2) {steps : Nat}
    (hsteps : m.2.write.length + (writeMembers members).length ≤ steps) (before : List (Option String × Json))
    (rest : Source) :
    readMembers steps before ((writeString m.1).map some ++ some ':' ::
      (m.2.write.map some ++ ((writeMembers members).map some ++ rest))) =
        some (before.reverse ++ m :: members, rest) := by
  induction members generalizing m steps before with
  | nil =>
    obtain ⟨steps, rfl⟩ := Nat.exists_eq_add_of_le' (Nat.le_trans (Nat.le_add_left 1 _) hsteps)
    simp only [readMembers, readKey_append]
    rw [h m List.mem_cons_self steps _ (Nat.le_of_succ_le_succ hsteps) (endsNumber_writeMembers [] rest)]
    show some ((m :: before).reverse, rest) = _
    rw [List.reverse_cons]
  | cons k members ih =>
    have hlength : k.2.write.length + (writeMembers members).length + 1 ≤ (writeMembers (k :: members)).length := by
      simp only [writeMembers, List.length_append, List.length_cons]
      omega
    obtain ⟨steps, rfl⟩ : ∃ n, steps = n + 1 := Nat.exists_eq_add_of_le' (by omega)
    have hwritten : (writeMembers (k :: members)).map some ++ rest = some ',' :: ((writeString k.1).map some ++
        some ':' :: (k.2.write.map some ++ ((writeMembers members).map some ++ rest))) := by
      simp only [writeMembers, List.map_cons, List.map_append, List.cons_append, List.append_assoc]
    simp only [readMembers, readKey_append]
    rw [h m List.mem_cons_self steps _ (by omega) (endsNumber_writeMembers _ rest), hwritten]
    show readMembers steps (m :: before) ((writeString k.1).map some ++
      some ':' :: (k.2.write.map some ++ ((writeMembers members).map some ++ rest))) = _
    rw [ih (fun x hx => h x (List.mem_cons_of_mem m hx)) (by omega), List.reverse_cons, List.append_assoc,
      List.singleton_append]

/-- An object is read back if the values of its members are. -/
theorem readsBack_object {members : List (Option String × Json)} (h : ∀ m ∈ members, ReadsBack m.2) :
    ReadsBack (object members) := by
  cases members with
  | nil =>
    refine readsBack_of_step (List.cons_ne_nil _ _) fun steps rest _ _ => ?_
    rw [readValue]
    rfl
  | cons m members =>
    refine readsBack_of_step (List.cons_ne_nil _ _) fun steps rest hsteps _ => ?_
    have hbound : m.2.write.length + (writeMembers members).length ≤ steps := by
      simp only [write, List.length_append, List.length_cons] at hsteps
      omega
    have hwritten : (write (object (m :: members))).map some ++ rest = some '\x7b' :: ((writeString m.1).map some ++
        some ':' :: (m.2.write.map some ++ ((writeMembers members).map some ++ rest))) := by
      simp only [write, List.map_cons, List.map_append, List.cons_append, List.append_assoc]
    have hread := readMembers_append h hbound [] rest
    obtain ⟨body, hbody, -⟩ := readString_writeString m.1
      (some ':' :: (m.2.write.map some ++ ((writeMembers members).map some ++ rest)))
    rw [hbody] at hread
    rw [hwritten, hbody, readValue]
    show (readMembers steps [] (some '"' :: body)).map _ = _
    rw [hread, Option.map_some]
    rfl

/-! ## Texts -/

theorem IsWellFormed.readsBack {j : Json} (h : j.IsWellFormed) : ReadsBack j := by
  induction h with
  | null => exact readsBack_null
  | bool b => exact readsBack_bool b
  | number h => exact readsBack_number h
  | string s => exact readsBack_string s
  | array h ih => exact readsBack_array h ih
  | object h ih => exact readsBack_object ih

theorem endsNumber_blanks {blanks : List Char} (h : ∀ c ∈ blanks, IsBlank c) : EndsNumber (blanks.map some) := by
  cases blanks with
  | nil => exact endsNumber_nil
  | cons c blanks =>
    have hc := h c List.mem_cons_self
    refine endsNumber_cons ?_ ?_ ?_ ?_ _ <;> rcases hc with rfl | rfl | rfl | rfl <;> decide

/-- **What is written is read back.**  A value whose numbers are well formed is read back from what is written for it,
whatever blanks stand before and after it. -/
theorem read?_write {j : Json} (hj : j.IsWellFormed) {front back : List Char} (hfront : ∀ c ∈ front, IsBlank c)
    (hback : ∀ c ∈ back, IsBlank c) : read? ((front ++ j.write ++ back).map some) = some j := by
  have hlength : j.write.length ≤ ((front ++ j.write ++ back).map some).length + 1 := by
    simp only [List.length_map, List.length_append]
    omega
  have hread : readValue (((front ++ j.write ++ back).map some).length + 1) ((front ++ j.write ++ back).map some) =
      some (j, back.map some) := by
    rw [List.map_append, List.map_append, List.append_assoc, readValue_blanks hfront]
    rw [List.map_append, List.map_append, List.append_assoc] at hlength
    exact hj.readsBack _ _ hlength (endsNumber_blanks hback)
  have hend : skipBlanks (back.map some) = [] := by
    rw [← List.append_nil (back.map some), skipBlanks_append hback]
    rfl
  rw [read?, hread]
  simp only [hend, List.isEmpty_nil, if_true]

theorem ofText?_render {j : Json} (hj : j.IsWellFormed) {front back : String} (hfront : ∀ c ∈ front.toList, IsBlank c)
    (hback : ∀ c ∈ back.toList, IsBlank c) : ofText? (front ++ j.render ++ back) = some j := by
  rw [ofText?, String.toList_append, String.toList_append, render, String.toList_ofList]
  exact read?_write hj hfront hback

/-- The same without blanks. -/
theorem ofText?_render_eq {j : Json} (hj : j.IsWellFormed) : ofText? j.render = some j := by
  have htext : ofText? ("" ++ j.render ++ "") = some j := ofText?_render hj nofun nofun
  rwa [String.empty_append, String.append_empty] at htext

end DeckLegality.Json
