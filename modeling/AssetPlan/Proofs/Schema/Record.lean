import AssetPlan.Proofs.Except
import AssetPlan.Schema.Record

/-! # Records that were read

A record is read from a mapping field by field, and each field by what its reader takes from the
value at its name.
-/

namespace AssetPlan.Schema

variable {α β : Type}

theorem list_eq_ok_iff {item : Reader α} {v : Value} {xs : List α} :
    list item v = .ok xs ↔ ∃ items, v = .array items ∧ items.mapM item = .ok xs := by
  cases v <;> simp [list]

/-- An item that is read keeps its place when more items follow. -/
theorem list_append {item : Reader α} {items more : List Value} {xs ys : List α}
    (first : list item (.array items) = .ok xs)
    (whole : list item (.array (items ++ more)) = .ok ys) : xs <+: ys := by
  have first : items.mapM item = .ok xs := first
  have whole : (items ++ more).mapM item = .ok ys := whole
  rw [List.mapM_append, first, Except.ok_bind] at whole
  obtain ⟨later, _, same⟩ := Except.bind_eq_ok_iff.mp whole
  cases same
  exact List.prefix_append xs later

namespace Record

variable {get : String → Option Value}

theorem ofFields_map_eq_ok_iff {f : α → β} {fields : Record α} {b : β} :
    (f <$> fields).ofFields get = .ok b ↔ ∃ a, fields.ofFields get = .ok a ∧ f a = b :=
  Except.map_eq_ok_iff

theorem ofFields_seq_eq_ok_iff {first : Record (α → β)} {second : Record α} {b : β} :
    (first <*> second).ofFields get = .ok b ↔
      ∃ f, first.ofFields get = .ok f ∧ ∃ a, second.ofFields get = .ok a ∧ f a = b := by
  change (first.ofFields get >>= fun f => second.ofFields get >>= fun a => .ok (f a)) = .ok b ↔ _
  simp only [Except.bind_eq_ok_iff, Except.ok.injEq]

theorem ofItems_map_eq_ok_iff {f : α → β} {fields : Record α} {expected : String} {index : Nat}
    {items rest : List Value} {b : β} :
    (f <$> fields).ofItems expected index items = .ok (b, rest) ↔
      ∃ a, fields.ofItems expected index items = .ok (a, rest) ∧ f a = b := by
  change (fields.ofItems expected index items).map _ = .ok (b, rest) ↔ _
  simp only [Except.map_eq_ok_iff, Prod.mk.injEq, Prod.exists]
  constructor
  · rintro ⟨a, _, taken, same, rfl⟩
    exact ⟨a, taken, same⟩
  · rintro ⟨a, taken, same⟩
    exact ⟨a, rest, taken, same, rfl⟩

theorem ofItems_seq_eq_ok_iff {first : Record (α → β)} {second : Record α} {expected : String}
    {index : Nat} {items rest : List Value} {b : β} :
    (first <*> second).ofItems expected index items = .ok (b, rest) ↔
      ∃ f middle, first.ofItems expected index items = .ok (f, middle) ∧
        ∃ a, second.ofItems expected (index + first.names.length) middle = .ok (a, rest) ∧
          f a = b := by
  change (first.ofItems expected index items >>= fun taken =>
    second.ofItems expected (index + first.names.length) taken.2 >>= fun later =>
      .ok (taken.1 later.1, later.2)) = .ok (b, rest) ↔ _
  simp only [Except.bind_eq_ok_iff, Except.ok.injEq, Prod.mk.injEq, Prod.exists]
  constructor
  · rintro ⟨f, middle, taken, a, _, later, same, rfl⟩
    exact ⟨f, middle, taken, a, later, same⟩
  · rintro ⟨f, middle, taken, a, later, same⟩
    exact ⟨f, middle, taken, a, rest, later, same, rfl⟩

/-- A field takes the first item that is left. -/
theorem ofItems_field_cons_eq_ok_iff {name : String} {read : Reader α} {absent beyond : Option α}
    {expected : String} {index : Nat} {v : Value} {items rest : List Value} {a : α} :
    (field name read absent beyond).ofItems expected index (v :: items) = .ok (a, rest) ↔
      read v = .ok a ∧ items = rest := by
  change (read v).map (fun a => (a, items)) = .ok (a, rest) ↔ _
  simp only [Except.map_eq_ok_iff, Prod.mk.injEq]
  constructor
  · rintro ⟨_, here, rfl, same⟩
    exact ⟨here, same⟩
  · rintro ⟨here, same⟩
    exact ⟨a, here, rfl, same⟩

end Record

/-- A record that was read from a mapping has its fields from there. -/
theorem ofFields_of_recordWith {strict : Bool} {name : String} {fields : Record α}
    {entries : Entries} {a : α} (success : recordWith strict name fields (.object entries) = .ok a) :
    fields.ofFields (fun key => Entries.find? key entries) = .ok a := by
  obtain ⟨_, _, success⟩ := Except.bind_eq_ok_iff.mp success
  exact success

/-- A record that was read from a sequence has its fields from the items in order. -/
theorem ofItems_of_recordWith {strict : Bool} {name : String} {fields : Record α}
    {items : List Value} {a : α} (success : recordWith strict name fields (.array items) = .ok a) :
    ∃ expected, fields.ofItems expected 0 items = .ok (a, []) := by
  obtain ⟨⟨_, rest⟩, taken, success⟩ := Except.bind_eq_ok_iff.mp success
  dsimp only at success
  split at success
  next none =>
    cases success
    exact ⟨_, List.isEmpty_iff.mp none ▸ taken⟩
  next => cases success

theorem text_eq_ok_iff {v : Value} {s : String} : text v = .ok s ↔ v = .string s := by
  cases v <;> simp [text]

theorem ofFields_required_eq_ok_iff {name : String} {read : Reader α}
    {get : String → Option Value} {a : α} :
    (required name read).ofFields get = .ok a ↔ ∃ v, get name = some v ∧ read v = .ok a := by
  simp only [required, Record.field]
  cases get name <;> simp

/-- A field with a default has it exactly if it is missing. -/
theorem ofFields_withDefault_eq_ok_iff {name : String} {default : α} {read : Reader α}
    {get : String → Option Value} {a : α} :
    (withDefault name default read).ofFields get = .ok a ↔
      (get name = none ∧ default = a) ∨ ∃ v, get name = some v ∧ read v = .ok a := by
  simp only [withDefault, Record.field]
  cases get name <;> simp

end AssetPlan.Schema
