import AssetPlan.Proofs.Schema.Record
import AssetPlan.Proofs.Value.Canonical

/-! # Reading what was written

A record is written field by field and read back by key. It comes back if each field does: what is
written for the field is read as its value, and a field that is left out is one whose default it
holds. This is so in whatever order the fields stand. What a record has from a value whose mappings
are in order is in order again.
-/

namespace AssetPlan.Schema

open Entries Value

variable {α β : Type} {f : Value → Value}

theorem list_map {item : Reader α} {write : α → Value} {xs : List α} (arranges : Arranges f)
    (restored : ∀ a ∈ xs, item (f (write a)) = .ok a) :
    list item (f (.array (xs.map write))) = .ok xs := by
  rw [arranges.array]
  change ((xs.map write).map f).mapM item = .ok xs
  induction xs with
  | nil => rfl
  | cons a rest ih =>
    obtain ⟨first, later⟩ := List.forall_mem_cons.mp restored
    exact Except.mapM_cons_eq_ok_iff.mpr ⟨a, rest, first, ih later, rfl⟩

theorem text_string (arranges : Arranges f) (s : String) : text (f (.string s)) = .ok s :=
  congrArg text (arranges.scalar rfl)

/-- A reader that refuses `null` reads other values as before where `null` is allowed. -/
theorem nullable_of_eq_ok {item : Reader α} {v : Value} {a : α} (restored : item v = .ok a)
    (strict : ∀ a, item .null ≠ .ok a) : nullable item v = .ok (some a) := by
  cases v with
  | null => exact (strict a restored).elim
  | _ => exact congrArg (Except.map some) restored

theorem natural_int (range : String) (n : Nat) : natural range (.int n) = .ok n := by
  have nonneg : ¬ (n : Int) < 0 := by omega
  calc natural range (.int n)
      = if (n : Int) < 0 then .error (.wrongValue (.integer n) range)
        else .ok (n : Int).toNat := rfl
    _ = .ok n := by rw [if_neg nonneg, Int.toNat_natCast]

namespace Record

/-- The written entries give the record back, with its mappings rearranged by `f` inside and in any
order themselves. -/
structure Restores (f : Value → Value) (record : Record α) (written : List (String × Value))
    (a : α) : Prop where
  /-- a field is written once at most -/
  keys : List.Sublist (Entries.keys written) record.names
  check : ∀ {key v}, (key, v) ∈ written → record.check key (f v) = .ok ()
  ofFields : ∀ {get}, (∀ key ∈ record.names, get key = (find? key written).map f) →
    record.ofFields get = .ok a

variable {name : String} {read : Reader α} {absent beyond : Option α}

theorem ofFields_field {get : String → Option Value} :
    (field name read absent beyond).ofFields get =
      match get name, absent with
      | some v, _ => read v
      | none, some a => .ok a
      | none, none => .error (.missingField name) := rfl

theorem restores_writeField {v : Value} {a : α} (restored : read (f v) = .ok a) :
    (field name read absent beyond).Restores f (writeField name v) a where
  keys := List.Sublist.refl [name]
  check {key w} member := by
    obtain ⟨rfl, rfl⟩ := Prod.mk.inj (List.mem_singleton.mp member)
    change (if key = key then (read (f w)).map _ else _) = _
    rw [if_pos rfl, restored]
    rfl
  ofFields {get} found := by
    have here : get name = some (f v) := by
      rw [found name (List.mem_singleton_self name), writeField, find?_cons, if_pos rfl]
      rfl
    rw [ofFields_field, here]
    exact restored

/-- A field that is left out has its default. -/
theorem restores_nil {a : α} (default : absent = some a) :
    (field name read absent beyond).Restores f [] a where
  keys := List.nil_sublist _
  check member := by cases member
  ofFields {get} found := by
    have here : get name = none := found name (List.mem_singleton_self name)
    rw [ofFields_field, here, default]

theorem restores_writeOptional {beyond : Option (Option α)} {write : α → Value} {o : Option α}
    (restored : ∀ a ∈ o, read (f (write a)) = .ok a) (strict : ∀ a, read .null ≠ .ok a) :
    (field name (nullable read) (some none) beyond).Restores f (writeOptional name write o) o := by
  cases o with
  | none => exact restores_nil rfl
  | some a => exact restores_writeField (nullable_of_eq_ok (restored a rfl) strict)

section Arranged

variable (arranges : Arranges f)
include arranges

theorem restores_string {absent beyond : Option String} (s : String) :
    (field name text absent beyond).Restores f (writeField name (.string s)) s :=
  restores_writeField (text_string arranges s)

theorem restores_optionalString {beyond : Option (Option String)} (o : Option String) :
    (field name (nullable text) (some none) beyond).Restores f (writeOptional name .string o) o :=
  restores_writeOptional (fun s _ => text_string arranges s) fun _ => nofun

theorem restores_writeFlag (on : Bool) :
    (withDefault name false flag).Restores f (writeFlag name on) on := by
  cases on with
  | false => exact restores_nil rfl
  | true => exact restores_writeField (congrArg flag (arranges.scalar rfl))

theorem restores_writeList {write : α → Value} {xs : List α}
    (restored : ∀ a ∈ xs, read (f (write a)) = .ok a) :
    (withDefault name [] (list read)).Restores f (writeList name write xs) xs := by
  cases xs with
  | nil => exact restores_nil rfl
  | cons a rest => exact restores_writeField (list_map arranges restored)

theorem restores_strings (xs : List String) :
    (withDefault name [] (list text)).Restores f (writeList name .string xs) xs :=
  restores_writeList arranges fun s _ => text_string arranges s

end Arranged

theorem restores_writeMapping {entries : Entries}
    (settled : f (.object entries) = .object entries) :
    (withDefault name [] mapping).Restores f (writeMapping name entries) entries := by
  cases entries with
  | nil => exact restores_nil rfl
  | cons entry rest => exact restores_writeField (congrArg mapping settled)

namespace Restores

variable {record : Record α} {written : List (String × Value)} {a : α}

theorem map (restores : record.Restores f written a) (g : α → β) :
    (g <$> record).Restores f written (g a) where
  keys := restores.keys
  check := restores.check
  ofFields found := ofFields_map_eq_ok_iff.mpr ⟨a, restores.ofFields found, rfl⟩

theorem seq {first : Record (α → β)} {front : List (String × Value)} {g : α → β}
    (restoresFirst : first.Restores f front g) (restores : record.Restores f written a)
    (distinct : ∀ key ∈ first.names, key ∉ record.names) :
    (first <*> record).Restores f (front ++ written) (g a) where
  keys := by
    change List.Sublist ((front ++ written).map Prod.fst) (first.names ++ record.names)
    rw [List.map_append]
    exact restoresFirst.keys.append restores.keys
  check {key v} member := by
    change (if key ∈ first.names then first.check key (f v) else record.check key (f v)) = _
    rcases List.mem_append.mp member with early | late
    · have declared : key ∈ first.names := restoresFirst.keys.subset (List.mem_map_of_mem early)
      rw [if_pos declared]
      exact restoresFirst.check early
    · have declared : key ∈ record.names := restores.keys.subset (List.mem_map_of_mem late)
      rw [if_neg fun early => distinct key early declared]
      exact restores.check late
  ofFields {get} found := by
    -- a key of one part is not found in the other part
    have early : ∀ key ∈ first.names, get key = (find? key front).map f := by
      intro key declared
      have absent : find? key written = none := find?_eq_none_iff.mpr fun member =>
        distinct key declared (restores.keys.subset member)
      rw [found key (List.mem_append_left _ declared), find?_append, absent, Option.or_none]
    have late : ∀ key ∈ record.names, get key = (find? key written).map f := by
      intro key declared
      have absent : find? key front = none := find?_eq_none_iff.mpr fun member =>
        distinct key (restoresFirst.keys.subset member) declared
      rw [found key (List.mem_append_right _ declared), find?_append, absent, Option.none_or]
    have both := restoresFirst.ofFields early
    exact ofFields_seq_eq_ok_iff.mpr ⟨g, both, a, restores.ofFields late, rfl⟩

end Restores

end Record

theorem checkEntries_eq_ok {record : Record α} {strict : Bool} {entries : List (String × Value)}
    (declared : strict = true → ∀ key ∈ Entries.keys entries, key ∈ record.names)
    (accepted : ∀ {key v}, (key, v) ∈ entries → key ∈ record.names → record.check key v = .ok ()) :
    checkEntries record strict entries = .ok () := by
  induction entries with
  | nil => rfl
  | cons entry rest ih =>
    obtain ⟨key, v⟩ := entry
    have later := ih (fun closed k member => declared closed k (List.mem_cons_of_mem _ member))
      fun member => accepted (List.mem_cons_of_mem _ member)
    rw [checkEntries]
    split
    next known => rw [accepted List.mem_cons_self known, later]; rfl
    next unknown =>
      have isOpen : strict = false := by
        cases strict with
        | false => rfl
        | true => exact (unknown (declared rfl key List.mem_cons_self)).elim
      rw [isOpen, if_neg Bool.false_ne_true, ← isOpen, later]

/-- An entry that is accepted at a declared key does not make a record worse. -/
theorem checkEntries_insert_eq_ok {record : Record α} {strict : Bool} {key : String} {v : Value}
    {entries : Entries} (accepted : checkEntries record strict entries = .ok ())
    (declared : key ∈ record.names) (checked : record.check key v = .ok ()) :
    checkEntries record strict (Entries.insert key v entries) = .ok () := by
  have front {rest : Entries} (accepted : checkEntries record strict rest = .ok ()) :
      checkEntries record strict ((key, v) :: rest) = .ok () := by
    rw [checkEntries, if_pos declared, checked, Except.ok_bind, accepted]
  induction entries with
  | nil => exact front accepted
  | cons entry rest ih =>
    obtain ⟨k, w⟩ := entry
    have later : checkEntries record strict rest = .ok () := by
      rw [checkEntries] at accepted
      split at accepted
      next =>
        obtain ⟨_, _, accepted⟩ := Except.bind_eq_ok_iff.mp accepted
        exact accepted
      next =>
        split at accepted
        next => cases accepted
        next => exact accepted
    rw [Entries.insert]
    split
    next => exact front later
    next =>
      split
      next => exact front accepted
      next =>
        rw [checkEntries, later] at accepted
        rw [checkEntries, ih later]
        exact accepted

/-- A record is read back from its written fields, rearranged or not. -/
theorem recordWith_written {strict : Bool} {name : String} {record : Record α}
    {written : List (String × Value)} {a : α} (arranges : Arranges f)
    (distinct : record.names.Nodup) (restores : record.Restores f written a) :
    recordWith strict name record (f (.object written)) = .ok a := by
  obtain ⟨arranged, shape, found, source⟩ :=
    arranges.exists_arranged (distinct.sublist restores.keys)
  have accepted : checkEntries record strict arranged = .ok () := by
    apply checkEntries_eq_ok
    · intro _ key member
      obtain ⟨v, here⟩ := mem_keys_iff.mp member
      obtain ⟨w, there, _⟩ := source (mem_of_find? here)
      exact restores.keys.subset (List.mem_map_of_mem there)
    · intro key v member _
      obtain ⟨w, there, rfl⟩ := source member
      exact restores.check there
  rw [shape, recordWith, accepted, Except.ok_bind]
  exact restores.ofFields fun key _ => found key

/-- Every value in order that is read gives a result with the property. -/
def Yields (read : Reader α) (P : α → Prop) : Prop :=
  ∀ v a, v.Ordered → read v = .ok a → P a

theorem yields_mapping : Yields mapping fun entries => (Value.object entries).Ordered := by
  intro v entries ordered success
  cases v with
  | object _ =>
    cases success
    exact ordered
  | _ => cases success

theorem Yields.list {item : Reader α} {P : α → Prop} (yields : Yields item P) :
    Yields (list item) fun as => ∀ a ∈ as, P a := by
  intro v as ordered success
  obtain ⟨items, rfl, taken⟩ := list_eq_ok_iff.mp success
  intro a member
  obtain ⟨v, inItems, read⟩ := (Except.forall_mem_of_mapM taken).2 a member
  exact yields v a (ordered_array_iff.mp ordered v inItems) read

namespace Record

/-- Fields in order give a record with the property, and leave items in order. -/
structure Yields (record : Record α) (P : α → Prop) : Prop where
  ofFields : ∀ {get a}, (∀ key v, get key = some v → v.Ordered) → record.ofFields get = .ok a → P a
  ofItems : ∀ {expected index items a rest}, (∀ v ∈ items, v.Ordered) →
    record.ofItems expected index items = .ok (a, rest) → P a ∧ ∀ v ∈ rest, v.Ordered

variable {name : String} {read : Reader α} {absent beyond : Option α} {P : α → Prop}

theorem yields_field (yields : Schema.Yields read P) (default : ∀ a ∈ absent, P a)
    (default' : ∀ a ∈ beyond, P a) : (field name read absent beyond).Yields P where
  ofFields {get a} ordered success := by
    rw [ofFields_field] at success
    cases here : get name with
    | some v =>
      rw [here] at success
      exact yields v a (ordered name v here) success
    | none =>
      rw [here] at success
      cases absent with
      | none => cases success
      | some b =>
        cases success
        exact default a rfl
  ofItems {expected index items a rest} ordered success := by
    cases items with
    | cons v items =>
      obtain ⟨here, rfl⟩ := ofItems_field_cons_eq_ok_iff.mp success
      obtain ⟨first, later⟩ := List.forall_mem_cons.mp ordered
      exact ⟨yields v a first here, later⟩
    | nil =>
      cases beyond with
      | none => cases success
      | some b =>
        cases success
        exact ⟨default' a rfl, ordered⟩

theorem yields_withDefault {default : α} (yields : Schema.Yields read P) (kept : P default) :
    (withDefault name default read).Yields P := by
  refine yields_field yields ?_ ?_ <;>
  · rintro _ ⟨⟩
    exact kept

/-- A property of all values holds of what a field is read as. -/
theorem yields_of_forall (all : ∀ a, P a) : (field name read absent beyond).Yields P :=
  yields_field (fun _ a _ _ => all a) (fun a _ => all a) fun a _ => all a

theorem Yields.map {record : Record α} {P : β → Prop} {g : α → β}
    (yields : record.Yields fun a => P (g a)) : (g <$> record).Yields P where
  ofFields ordered success := by
    obtain ⟨a, inner, rfl⟩ := ofFields_map_eq_ok_iff.mp success
    exact yields.ofFields ordered inner
  ofItems ordered success := by
    obtain ⟨a, inner, rfl⟩ := ofItems_map_eq_ok_iff.mp success
    exact yields.ofItems ordered inner

theorem Yields.seq {first : Record (α → β)} {record : Record α} {Q : α → Prop} {P : β → Prop}
    (yieldsFirst : first.Yields fun g => ∀ a, Q a → P (g a)) (yields : record.Yields Q) :
    (first <*> record).Yields P where
  ofFields ordered success := by
    obtain ⟨g, front, a, later, rfl⟩ := ofFields_seq_eq_ok_iff.mp success
    exact yieldsFirst.ofFields ordered front a (yields.ofFields ordered later)
  ofItems ordered success := by
    obtain ⟨g, middle, front, a, later, rfl⟩ := ofItems_seq_eq_ok_iff.mp success
    obtain ⟨kept, ordered⟩ := yieldsFirst.ofItems ordered front
    obtain ⟨kept', ordered⟩ := yields.ofItems ordered later
    exact ⟨kept a kept', ordered⟩

end Record

theorem yields_recordWith {strict : Bool} {name : String} {record : Record α} {P : α → Prop}
    (yields : record.Yields P) : Yields (recordWith strict name record) P := by
  intro v a ordered success
  cases v with
  | object entries =>
    have inner := (ordered_object_iff.mp ordered).2
    exact yields.ofFields (fun key w found => inner.of_find? found)
      (ofFields_of_recordWith success)
  | array items =>
    obtain ⟨_, taken⟩ := ofItems_of_recordWith success
    exact (yields.ofItems (ordered_array_iff.mp ordered) taken).1
  | _ => cases success

end AssetPlan.Schema
