import AssetPlan.Proofs.Schema.Record
import AssetPlan.Proofs.Value.Entries

/-! # Forms of values

A form says which keys the mappings of a value may have, level by level, and where the keys are
free. A reader keeps to a form if it refuses every value that is not of this form. For a record this
follows field by field from the readers of the fields: the mapping has declared keys only, and so
does the sequence that gives the fields by their places.
-/

namespace AssetPlan

/-- A condition on the keys that stand inside a value. -/
abbrev Form := Value → Prop

namespace Form

/-- Nothing that has keys inside. -/
def scalar : Form := fun v => v.isScalar

/-- A mapping whose keys are free. -/
def options : Form := fun v => v.isObject

/-- A sequence of items of one form. -/
def list (item : Form) : Form
  | .array items => ∀ v ∈ items, item v
  | _ => False

/-- `null`, or a value of the form. -/
def nullable (form : Form) : Form := fun v => v = .null ∨ form v

/-- Each item stands for the field at its place. -/
def Placed : List (String × Form) → List Value → Prop
  | _, [] => True
  | [], _ :: _ => False
  | (_, form) :: fields, v :: items => form v ∧ Placed fields items

/-- The declared fields of a record: each key is one of theirs, with a value of its form. -/
def record (fields : List (String × Form)) : Form
  | .object entries =>
    ∀ key v, Entries.find? key entries = some v → ∃ form, (key, form) ∈ fields ∧ form v
  | .array items => Placed fields items
  | _ => False

/-- One of the named variants, or a mapping from its name to nothing. -/
def variant (names : List String) : Form
  | .object entries => ∀ key ∈ Entries.keys entries, key ∈ names
  | v => v.isScalar

/-- The fields of a variant beside the one that names it. If the form is not `closed`, other keys
may stand there as well. -/
def tagged (closed : Bool) (tag : String) (variants : List (String × List (String × Form))) : Form
  | .object entries => ∃ kind fields, Entries.find? tag entries = some (.string kind) ∧
      (kind, fields) ∈ variants ∧ ∀ key v, Entries.find? key entries = some v →
        key = tag ∨ (∃ form, (key, form) ∈ fields ∧ form v) ∨
          (closed = false ∧ key ∉ fields.map Prod.fst)
  | .array items => ∃ kind fields rest, items = .string kind :: rest ∧ (kind, fields) ∈ variants ∧
      Placed fields rest
  | _ => False

/-- The value of a field: by its name in a mapping, by its place in a sequence. -/
def FieldOf (name : String) (place : Nat) : Value → Value → Prop
  | .object entries, w => Entries.find? name entries = some w
  | .array items, w => items[place]? = some w
  | _, _ => False

variable {before after : List (String × Form)} {name : String} {form form' : Form} {v w : Value}

theorem Placed.field {items : List Value}
    (placed : Placed (before ++ (name, form) :: after) items)
    (found : items[before.length]? = some w) : form w := by
  induction before generalizing items with
  | nil =>
    cases items with
    | nil => cases found
    | cons v rest =>
      cases found
      exact placed.1
  | cons first before ih =>
    cases items with
    | nil => cases found
    | cons v rest => exact ih placed.2 found

theorem Placed.refine {items : List Value}
    (placed : Placed (before ++ (name, form) :: after) items)
    (atField : ∀ w, items[before.length]? = some w → form' w) :
    Placed (before ++ (name, form') :: after) items := by
  induction before generalizing items with
  | nil =>
    cases items with
    | nil => exact trivial
    | cons v rest => exact ⟨atField v rfl, placed.2⟩
  | cons first before ih =>
    cases items with
    | nil => exact trivial
    | cons v rest => exact ⟨placed.1, ih placed.2 atField⟩

/-- What stands at a field has the form of the field, whose name is not declared twice. -/
theorem record_field (before after : List (String × Form))
    (once : name ∉ (before ++ after).map Prod.fst)
    (holds : record (before ++ (name, form) :: after) v)
    (found : FieldOf name before.length v w) : form w := by
  cases v with
  | object entries =>
    obtain ⟨other, member, holds⟩ := holds name w found
    rw [List.map_append, List.mem_append, not_or] at once
    rcases List.mem_append.mp member with early | late
    · exact (once.1 (List.mem_map_of_mem early)).elim
    · rcases List.mem_cons.mp late with same | late
      · cases same
        exact holds
      · exact (once.2 (List.mem_map_of_mem late)).elim
  | array items => exact holds.field found
  | _ => exact found.elim

/-- The form of one field may be narrowed to what holds of the value there. -/
theorem record_refine (before after : List (String × Form))
    (holds : record (before ++ (name, form) :: after) v)
    (atField : ∀ w, FieldOf name before.length v w → form' w) :
    record (before ++ (name, form') :: after) v := by
  cases v with
  | object entries =>
    intro key w found
    obtain ⟨other, member, holds⟩ := holds key w found
    rcases List.mem_append.mp member with early | late
    · exact ⟨other, List.mem_append_left _ early, holds⟩
    · rcases List.mem_cons.mp late with same | late
      · cases same
        exact ⟨form', List.mem_append_right _ List.mem_cons_self, atField w found⟩
      · exact ⟨other, List.mem_append_right _ (List.mem_cons_of_mem _ late), holds⟩
  | array items => exact holds.refine atField
  | _ => exact holds.elim

end Form

namespace Schema

variable {α β : Type}

/-- Every value that is read has the form. -/
def KeepsTo (read : Reader α) (form : Form) : Prop :=
  ∀ {v a}, read v = .ok a → form v

theorem keepsTo_text : KeepsTo text Form.scalar := by
  intro v a success
  cases v <;> first | rfl | cases success

theorem keepsTo_flag : KeepsTo flag Form.scalar := by
  intro v a success
  cases v <;> first | rfl | cases success

theorem keepsTo_natural (range : String) : KeepsTo (natural range) Form.scalar := by
  intro v a success
  cases v <;> first | rfl | cases success

theorem keepsTo_mapping : KeepsTo mapping Form.options := by
  intro v a success
  cases v <;> first | rfl | cases success

theorem KeepsTo.list {item : Reader α} {form : Form} (keeps : KeepsTo item form) :
    KeepsTo (list item) (Form.list form) := by
  intro v as success
  obtain ⟨items, rfl, taken⟩ := list_eq_ok_iff.mp success
  intro v member
  obtain ⟨a, _, read⟩ := (Except.forall_mem_of_mapM taken).1 v member
  exact keeps read

theorem KeepsTo.nullable {item : Reader α} {form : Form} (keeps : KeepsTo item form) :
    KeepsTo (nullable item) (Form.nullable form) := by
  intro v a success
  cases v with
  | null => exact .inl rfl
  | _ =>
    obtain ⟨_, success, _⟩ := Except.map_eq_ok_iff.mp success
    exact .inr (keeps success)

theorem KeepsTo.scalar_nullable {item : Reader α} (keeps : KeepsTo item Form.scalar) :
    KeepsTo (Schema.nullable item) Form.scalar := by
  intro v a success
  rcases keeps.nullable success with rfl | scalar
  · rfl
  · exact scalar

namespace Record

/-- What a record accepts at its fields has the forms of these fields. -/
structure KeepsTo (record : Record α) (fields : List (String × Form)) : Prop where
  names : record.names = fields.map Prod.fst
  entry : ∀ {key v}, key ∈ record.names → record.check key v = .ok () →
    ∃ form, (key, form) ∈ fields ∧ form v
  /-- the items before the rest stand for these fields, whatever fields the rest stands for -/
  items : ∀ {expected index items a rest}, record.ofItems expected index items = .ok (a, rest) →
    ∀ more, Form.Placed more rest → Form.Placed (fields ++ more) items

variable {record : Record α} {fields : List (String × Form)}

theorem keepsTo_field {read : Reader α} {form : Form} (keeps : Schema.KeepsTo read form)
    (name : String) (absent beyond : Option α) :
    (field name read absent beyond).KeepsTo [(name, form)] where
  names := rfl
  entry := by
    intro key v declared accepted
    obtain rfl := List.mem_singleton.mp declared
    simp only [field, if_true] at accepted
    obtain ⟨a, success, _⟩ := Except.map_eq_ok_iff.mp accepted
    exact ⟨form, List.mem_singleton_self _, keeps success⟩
  items := by
    intro expected index items a rest success more placed
    cases items with
    | nil => exact trivial
    | cons v rest =>
      obtain ⟨_, here, same⟩ := Except.map_eq_ok_iff.mp success
      cases same
      exact ⟨keeps here, placed⟩

theorem KeepsTo.map (keeps : record.KeepsTo fields) (f : α → β) : (f <$> record).KeepsTo fields where
  names := keeps.names
  entry := keeps.entry
  items := by
    intro expected index items b rest success
    obtain ⟨⟨a, left⟩, success, same⟩ := Except.map_eq_ok_iff.mp success
    cases same
    exact keeps.items success

theorem KeepsTo.seq {first : Record (α → β)} {firstFields : List (String × Form)}
    (keeps : first.KeepsTo firstFields) (later : record.KeepsTo fields) :
    (first <*> record).KeepsTo (firstFields ++ fields) where
  names := by
    rw [List.map_append, ← keeps.names, ← later.names]
    rfl
  entry := by
    intro key v declared accepted
    change (if key ∈ first.names then first.check key v else record.check key v) = .ok () at accepted
    split at accepted
    next inFirst =>
      obtain ⟨form, member, holds⟩ := keeps.entry inFirst accepted
      exact ⟨form, List.mem_append_left _ member, holds⟩
    next notFirst =>
      have inLater := (List.mem_append.mp declared).resolve_left notFirst
      obtain ⟨form, member, holds⟩ := later.entry inLater accepted
      exact ⟨form, List.mem_append_right _ member, holds⟩
  items := by
    intro expected index items b rest success
    obtain ⟨⟨f, middle⟩, atFirst, success⟩ := Except.bind_eq_ok_iff.mp success
    obtain ⟨⟨a, left⟩, atLater, same⟩ := Except.bind_eq_ok_iff.mp success
    cases same
    intro more placed
    rw [List.append_assoc]
    exact keeps.items atFirst _ (later.items atLater more placed)

theorem KeepsTo.placed (keeps : record.KeepsTo fields) {expected : String} {index : Nat}
    {items : List Value} {a : α} (success : record.ofItems expected index items = .ok (a, [])) :
    Form.Placed fields items := by
  have placed := keeps.items success [] trivial
  rwa [List.append_nil] at placed

end Record

variable {fields : Record α} {forms : List (String × Form)}

theorem checkEntries_find? {strict : Bool} {entries : Entries}
    (accepted : checkEntries fields strict entries = .ok ()) {key : String} {v : Value}
    (found : Entries.find? key entries = some v) :
    (key ∈ fields.names ∧ fields.check key v = .ok ()) ∨ (key ∉ fields.names ∧ strict = false) := by
  induction entries with
  | nil => cases found
  | cons entry rest ih =>
    obtain ⟨k, w⟩ := entry
    rw [checkEntries] at accepted
    rw [Entries.find?_cons] at found
    split at accepted
    next declared =>
      obtain ⟨_, here, accepted⟩ := Except.bind_eq_ok_iff.mp accepted
      split at found
      next same =>
        cases found
        exact .inl ⟨same ▸ declared, same ▸ here⟩
      next => exact ih accepted found
    next undeclared =>
      cases strict with
      | true => cases accepted
      | false =>
        split at found
        next same => exact .inr ⟨same ▸ undeclared, rfl⟩
        next => exact ih accepted found

/-- A record that refuses undeclared fields keeps to the forms of its fields. -/
theorem keepsTo_record (name : String) (keeps : fields.KeepsTo forms) :
    KeepsTo (record name fields) (Form.record forms) := by
  intro v a success
  cases v with
  | object entries =>
    obtain ⟨_, accepted, _⟩ := Except.bind_eq_ok_iff.mp success
    intro key v found
    rcases checkEntries_find? accepted found with ⟨declared, checked⟩ | ⟨_, open_⟩
    · exact keeps.entry declared checked
    · cases open_
  | array items =>
    obtain ⟨_, taken⟩ := ofItems_of_recordWith success
    exact keeps.placed taken
  | _ => cases success

end Schema

end AssetPlan
