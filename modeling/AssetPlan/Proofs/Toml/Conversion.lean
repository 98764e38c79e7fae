import AssetPlan.Proofs.Config.Project
import AssetPlan.Proofs.Toml.Reading

/-! # Documents as configurations

The conversion of a document to a configuration follows its structure: what stands at a path of keys
and indices is the conversion of what stood there, mappings keep their keys and sequences their
length. Two documents have the same conversion exactly if they agree at every path, where a
date-time counts as its text and all floats that are not finite count as one.
-/

namespace AssetPlan

open Entries

/-- A step into a value: to what stands at a key, or to an item of a sequence. -/
inductive Selector where
  | key (name : String)
  | item (index : Nat)

/-- What one step leads to. -/
def Value.select? : Value → Selector → Option Value
  | .object entries, .key name => find? name entries
  | .array items, .item index => items[index]?
  | _, _ => none

/-- The value at a path of keys and indices. -/
def Value.at? (v : Value) : List Selector → Option Value
  | [] => some v
  | s :: path => (v.select? s).bind fun inner => inner.at? path

namespace Toml

/-- What one step into a document leads to; of two entries for a key the first counts. -/
def select? : Toml → Selector → Option Toml
  | .table entries, .key name => entries.lookup name
  | .array items, .item index => items[index]?
  | _, _ => none

/-- The part of a document at a path. -/
def at? (t : Toml) : List Selector → Option Toml
  | [] => some t
  | s :: path => (t.select? s).bind fun inner => inner.at? path

/-- What may stand at one place in two documents with the same conversion. Of two tables or arrays
this says nothing, since what they hold stands at other places; the order of the keys of a table
counts nowhere. -/
inductive Alike : Toml → Toml → Prop
  | string (s : String) : Alike (.string s) (.string s)
  | integer (n : Int) : Alike (.integer n) (.integer n)
  | float (x : Decimal.Double) : Alike (.float x) (.float x)
  | boolean (b : Bool) : Alike (.boolean b) (.boolean b)
  -- two of one text are the same one if both are in range
  | moment {m n : Moment} (same : m.text = n.text) : Alike (.moment m) (.moment n)
  | spelled (m : Moment) : Alike (.moment m) (.string m.text)
  | spelling (m : Moment) : Alike (.string m.text) (.moment m)
  | unbounded {x y : Decimal.Double} (left : x.isFinite = false) (right : y.isFinite = false) :
      Alike (.float x) (.float y)
  | array (items items' : List Toml) : Alike (.array items) (.array items')
  | table (entries entries' : List (String × Toml)) : Alike (.table entries) (.table entries')

/-- At every path there is something in both or in neither, and then it is alike. -/
def Agrees (t u : Toml) : Prop := ∀ path, Option.Rel Alike (t.at? path) (u.at? path)

variable {t u : Toml} {items : List Toml} {entries : List (String × Toml)}

theorem toValues_eq_map (items : List Toml) : toValues items = items.map toValue := by
  induction items with
  | nil => rw [toValues, List.map_nil]
  | cons t rest ih => rw [toValues, ih, List.map_cons]

theorem find?_toEntries (key : String) (entries : List (String × Toml)) :
    find? key (toEntries entries) = (entries.lookup key).map toValue := by
  induction entries with
  | nil => rw [toEntries, find?_nil, List.lookup_nil, Option.map_none]
  | cons entry rest ih =>
    obtain ⟨k, t⟩ := entry
    rw [toEntries, find?_insert, ih, List.lookup_cons]
    by_cases asked : k = key
    · rw [if_pos asked, beq_iff_eq.mpr asked.symm, Option.map_some]
    · rw [if_neg asked, beq_eq_false_iff_ne.mpr (Ne.symm asked)]

theorem ascending_toEntries (entries : List (String × Toml)) : Ascending (toEntries entries) :=
  (Value.ordered_object_iff.mp (ordered_toEntries entries)).1

theorem mem_keys_toEntries_iff {key : String} :
    key ∈ (toEntries entries).keys ↔ key ∈ entries.map Prod.fst := by
  induction entries with
  | nil => rw [toEntries, List.map_nil, Entries.keys, List.map_nil]
  | cons entry rest ih =>
    obtain ⟨k, t⟩ := entry
    rw [toEntries, mem_keys_insert, ih, List.map_cons, List.mem_cons]

theorem select?_toValue (t : Toml) (s : Selector) :
    t.toValue.select? s = (t.select? s).map toValue := by
  cases t with
  | array items =>
    cases s with
    | key name => rw [toValue]; rfl
    | item index => rw [toValue, toValues_eq_map, Value.select?, List.getElem?_map, select?]
  | table entries =>
    cases s with
    | key name => rw [toValue, Value.select?, find?_toEntries, select?]
    | item index => rw [toValue]; rfl
  | float x =>
    rw [toValue]
    split <;> rfl
  | _ => rfl

/-- What stands at a path of the conversion is the conversion of what stands there. -/
theorem at?_toValue (t : Toml) (path : List Selector) :
    t.toValue.at? path = (t.at? path).map toValue := by
  induction path generalizing t with
  | nil => rfl
  | cons s path ih =>
    rw [Value.at?, at?, select?_toValue, Option.bind_map, Option.map_bind]
    congr 1
    funext inner
    exact ih inner

theorem toValue_float (x : Decimal.Double) :
    (Toml.float x).toValue = if x.isFinite then .number (.real x) else .null := by
  rw [toValue]

theorem toValue_eq_null_iff : t.toValue = .null ↔ ∃ x, t = .float x ∧ x.isFinite = false := by
  cases t with
  | float x => cases finite : x.isFinite <;> simp [toValue_float, finite]
  | _ => simp [toValue, Value.int]

theorem toValue_eq_int_iff {n : Int} : t.toValue = .int n ↔ t = .integer n := by
  cases t with
  | float x => cases finite : x.isFinite <;> simp [toValue_float, finite, Value.int]
  | _ => simp [toValue, Value.int]

theorem toValue_eq_real_iff {x : Decimal.Double} :
    t.toValue = .number (.real x) ↔ t = .float x ∧ x.isFinite = true := by
  cases t with
  | float y =>
    rw [toValue_float]
    split
    next finite =>
      rw [Value.number.injEq, Number.real.injEq, float.injEq]
      exact ⟨fun same => ⟨same, same ▸ finite⟩, And.left⟩
    next infinite =>
      refine iff_of_false nofun ?_
      rintro ⟨⟨⟩, finite⟩
      exact infinite finite
  | _ => simp [toValue, Value.int]

theorem toValue_eq_bool_iff {b : Bool} : t.toValue = .bool b ↔ t = .boolean b := by
  cases t with
  | float x => cases finite : x.isFinite <;> simp [toValue_float, finite]
  | _ => simp [toValue, Value.int]

theorem toValue_eq_string_iff {s : String} :
    t.toValue = .string s ↔ t = .string s ∨ ∃ m, t = .moment m ∧ m.text = s := by
  cases t with
  | float x => cases finite : x.isFinite <;> simp [toValue_float, finite]
  | _ => simp [toValue, Value.int]

theorem exists_of_toValue_eq_array {vs : List Value} (same : t.toValue = .array vs) :
    ∃ items, t = .array items := by
  cases t with
  | array items => exact ⟨items, rfl⟩
  | float x => cases finite : x.isFinite <;> simp [toValue_float, finite] at same
  | _ => simp [toValue, Value.int] at same

theorem exists_of_toValue_eq_object {es : Entries} (same : t.toValue = .object es) :
    ∃ entries, t = .table entries := by
  cases t with
  | table entries => exact ⟨entries, rfl⟩
  | float x => cases finite : x.isFinite <;> simp [toValue_float, finite] at same
  | _ => simp [toValue, Value.int] at same

/-- Values with the same conversion are alike. -/
theorem alike_of_toValue_eq (same : t.toValue = u.toValue) : Alike t u := by
  cases t with
  | string s =>
    rw [toValue, eq_comm, toValue_eq_string_iff] at same
    rcases same with rfl | ⟨m, rfl, rfl⟩
    · exact .string s
    · exact .spelling m
  | moment m =>
    rw [toValue, eq_comm, toValue_eq_string_iff] at same
    rcases same with rfl | ⟨n, rfl, same⟩
    · exact .spelled m
    · exact .moment same.symm
  | integer n =>
    rw [toValue, eq_comm, toValue_eq_int_iff] at same
    exact same ▸ .integer n
  | boolean b =>
    rw [toValue, eq_comm, toValue_eq_bool_iff] at same
    exact same ▸ .boolean b
  | float x =>
    rw [toValue_float] at same
    split at same
    · rw [eq_comm, toValue_eq_real_iff] at same
      exact same.1 ▸ .float x
    next infinite =>
      obtain ⟨y, rfl, infinite'⟩ := toValue_eq_null_iff.mp same.symm
      exact .unbounded (Bool.eq_false_iff.mpr infinite) infinite'
  | array items =>
    rw [toValue] at same
    obtain ⟨items', rfl⟩ := exists_of_toValue_eq_array same.symm
    exact .array items items'
  | table entries =>
    rw [toValue] at same
    obtain ⟨entries', rfl⟩ := exists_of_toValue_eq_object same.symm
    exact .table entries entries'

theorem sizeOf_lt_of_select? {s : Selector} {inner : Toml} (found : t.select? s = some inner) :
    sizeOf inner < sizeOf t := by
  cases t with
  | array items =>
    cases s with
    | key name => cases found
    | item index =>
      have smaller := List.sizeOf_lt_of_mem (List.mem_of_getElem? found)
      rw [array.sizeOf_spec]
      omega
  | table entries =>
    cases s with
    | key name =>
      have smaller := List.sizeOf_lt_of_mem (mem_of_lookup found)
      rw [Prod.mk.sizeOf_spec] at smaller
      rw [table.sizeOf_spec]
      omega
    | item index => cases found
  | _ => cases s <;> cases found

/-- Alike values have the same conversion if what they hold has. -/
theorem Alike.toValue_eq (alike : Alike t u)
    (inner : ∀ s, (t.select? s).map toValue = (u.select? s).map toValue) :
    t.toValue = u.toValue := by
  cases alike with
  | string | integer | float | boolean => rfl
  | moment same => rw [toValue, toValue, same]
  | spelled m => rw [toValue, toValue]
  | spelling m => rw [toValue, toValue]
  | unbounded left right =>
    rw [toValue_float, toValue_float, if_neg (Bool.eq_false_iff.mp left),
      if_neg (Bool.eq_false_iff.mp right)]
  | array items items' =>
    rw [toValue, toValue, toValues_eq_map, toValues_eq_map, Value.array.injEq]
    refine List.ext_getElem? fun index => ?_
    rw [List.getElem?_map, List.getElem?_map]
    exact inner (.item index)
  | table entries entries' =>
    rw [toValue, toValue, Value.object.injEq]
    refine (ascending_toEntries entries).ext (ascending_toEntries entries') fun key => ?_
    rw [find?_toEntries, find?_toEntries]
    exact inner (.key key)

theorem Agrees.select? (agree : Agrees t u) (s : Selector) :
    Option.Rel Agrees (t.select? s) (u.select? s) := by
  have below (path : List Selector) := agree (s :: path)
  simp only [at?] at below
  cases left : t.select? s with
  | none =>
    cases right : u.select? s with
    | none => exact .none
    | some d =>
      have here := below []
      rw [left, right] at here
      cases here
  | some c =>
    cases right : u.select? s with
    | none =>
      have here := below []
      rw [left, right] at here
      cases here
    | some d =>
      refine .some fun path => ?_
      have there := below path
      rwa [left, right] at there

/-- Values that agree at every path have the same conversion, by recursion on what they hold. -/
theorem Agrees.toValue_eq {t u : Toml} (agree : Agrees t u) : t.toValue = u.toValue := by
  cases agree [] with
  | some alike =>
    refine alike.toValue_eq fun s => ?_
    have below := agree.select? s
    cases left : t.select? s with
    | none =>
      cases right : u.select? s with
      | none => rfl
      | some d =>
        rw [left, right] at below
        cases below
    | some c =>
      cases right : u.select? s with
      | none =>
        rw [left, right] at below
        cases below
      | some d =>
        rw [left, right] at below
        cases below with
        | some inner => rw [Option.map_some, Option.map_some, inner.toValue_eq]
termination_by sizeOf t
decreasing_by exact sizeOf_lt_of_select? left

theorem agrees_of_toValue_eq (same : t.toValue = u.toValue) : Agrees t u := by
  intro path
  have there : (t.at? path).map toValue = (u.at? path).map toValue := by
    rw [← at?_toValue, same, at?_toValue]
  cases left : t.at? path with
  | none =>
    rw [left, Option.map_none, eq_comm, Option.map_eq_none_iff] at there
    rw [there]
    exact .none
  | some c =>
    rw [left, Option.map_some, eq_comm, Option.map_eq_some_iff] at there
    obtain ⟨d, right, same⟩ := there
    rw [right]
    exact .some (alike_of_toValue_eq same.symm)

theorem Proper.select? (proper : t.Proper) {s : Selector} {inner : Toml}
    (found : t.select? s = some inner) : inner.Proper := by
  cases proper with
  | array each =>
    cases s with
    | key name => cases found
    | item index => exact each inner (List.mem_of_getElem? found)
  | table each =>
    cases s with
    | key name => exact each (name, inner) (mem_of_lookup found)
    | item index => cases found
  | _ => cases s <;> cases found

/-- What stands somewhere in a document is in order as the document is. -/
theorem Proper.at? (proper : t.Proper) {path : List Selector} {inner : Toml}
    (found : t.at? path = some inner) : inner.Proper := by
  induction path generalizing t with
  | nil =>
    cases found
    exact proper
  | cons s path ih =>
    obtain ⟨middle, first, later⟩ := Option.bind_eq_some_iff.mp found
    exact ih (proper.select? first) later

section Places

variable {path : List Selector}

theorem at?_toValue_eq_some_iff {v : Value} :
    t.toValue.at? path = some v ↔ ∃ inner, t.at? path = some inner ∧ inner.toValue = v := by
  rw [at?_toValue, Option.map_eq_some_iff]

theorem at?_toValue_eq_null_iff : t.toValue.at? path = some .null ↔
    ∃ x, t.at? path = some (.float x) ∧ x.isFinite = false := by
  rw [at?_toValue_eq_some_iff]
  constructor
  · rintro ⟨inner, found, null⟩
    obtain ⟨x, rfl, infinite⟩ := toValue_eq_null_iff.mp null
    exact ⟨x, found, infinite⟩
  · rintro ⟨x, found, infinite⟩
    exact ⟨.float x, found, toValue_eq_null_iff.mpr ⟨x, rfl, infinite⟩⟩

theorem at?_toValue_eq_integer_iff {n : Int} :
    t.toValue.at? path = some (.number (.integer n)) ↔ t.at? path = some (.integer n) := by
  rw [at?_toValue_eq_some_iff]
  constructor
  · rintro ⟨inner, found, integer⟩
    rw [found, toValue_eq_int_iff.mp integer]
  · exact fun found => ⟨_, found, toValue_eq_int_iff.mpr rfl⟩

theorem at?_toValue_eq_real_iff {x : Decimal.Double} :
    t.toValue.at? path = some (.number (.real x)) ↔
      t.at? path = some (.float x) ∧ x.isFinite = true := by
  rw [at?_toValue_eq_some_iff]
  constructor
  · rintro ⟨inner, found, real⟩
    obtain ⟨rfl, finite⟩ := toValue_eq_real_iff.mp real
    exact ⟨found, finite⟩
  · rintro ⟨found, finite⟩
    exact ⟨_, found, toValue_eq_real_iff.mpr ⟨rfl, finite⟩⟩

/-- Two dates at one place of documents with the same conversion are the same date. -/
theorem moment_eq_of_toValue_eq (proper : t.Proper) (proper' : u.Proper)
    (same : t.toValue = u.toValue) {m n : Moment} (left : t.at? path = some (.moment m))
    (right : u.at? path = some (.moment n)) : m = n := by
  have agree := agrees_of_toValue_eq same path
  rw [left, right] at agree
  cases agree with
  | some alike =>
    cases alike with
    | moment text =>
      cases proper.at? left with
      | moment inRange =>
        cases proper'.at? right with
        | moment inRange' => exact Moment.eq_of_text_eq inRange inRange' text

end Places

/-- At every path, the conversion of a document has the conversion of what stands there. Sequences
keep their items in order, and mappings keep their keys. There is `null` where a float was infinite
or undefined, and nowhere else; integers remain integers, and the other floats remain floats. Two
documents have the same conversion exactly if they agree at every path but for date-times in place
of texts and for floats that are not finite; date-times that are in range are then the same, and
those that can be read from a text are in range. -/
theorem toValue_embeds :
    (∀ (t : Toml) path, t.toValue.at? path = (t.at? path).map toValue) ∧
    (∀ items, (Toml.array items).toValue = .array (items.map toValue)) ∧
    (∀ entries, ∃ converted : Entries, (Toml.table entries).toValue = .object converted ∧
      converted.Ascending ∧ ∀ key, key ∈ converted.keys ↔ key ∈ entries.map Prod.fst) ∧
    (∀ (t : Toml) path, t.toValue.at? path = some .null ↔
      ∃ x, t.at? path = some (.float x) ∧ x.isFinite = false) ∧
    (∀ (t : Toml) path n, t.toValue.at? path = some (.number (.integer n)) ↔
      t.at? path = some (.integer n)) ∧
    (∀ (t : Toml) path x, t.toValue.at? path = some (.number (.real x)) ↔
      t.at? path = some (.float x) ∧ x.isFinite = true) ∧
    (∀ t u : Toml, t.toValue = u.toValue ↔ t.Agrees u) ∧
    (∀ t u : Toml, t.Proper → u.Proper → t.toValue = u.toValue → ∀ path m n,
      t.at? path = some (.moment m) → u.at? path = some (.moment n) → m = n) ∧
    ∀ text t, parse? text = some t → t.Proper := by
  refine ⟨at?_toValue, fun items => ?_, fun entries => ?_, fun _ _ => at?_toValue_eq_null_iff,
    fun _ _ _ => at?_toValue_eq_integer_iff, fun _ _ _ => at?_toValue_eq_real_iff,
    fun _ _ => ⟨agrees_of_toValue_eq, Agrees.toValue_eq⟩, ?_, fun _ _ => proper_of_parse?⟩
  · rw [toValue, toValues_eq_map]
  · exact ⟨toEntries entries, by rw [toValue], ascending_toEntries entries,
      fun _ => mem_keys_toEntries_iff⟩
  · exact fun t u proper proper' same path m n => moment_eq_of_toValue_eq proper proper' same

/-- Two documents with a date in common; another date stands in the one as a date and in the other
as a text, and a limit is infinite in the one and undefined in the other. -/
theorem toValue_embeds_dates :
    ∃ (t u : Toml) (m n : Moment), t.Proper ∧ u.Proper ∧ t.toValue = u.toValue ∧ t.Agrees u ∧
      t.at? [.key "from"] = some (.moment m) ∧ u.at? [.key "from"] = some (.moment n) ∧ m = n ∧
      t.at? [.key "until"] = some (.moment ⟨some ⟨1980, 1, 2⟩, none, none⟩) ∧
      u.at? [.key "until"] = some (.string "1980-01-02") ∧
      t.toValue.at? [.key "limits", .item 1] = some .null ∧
      ∃ d, parse? "from=1979-05-27" = some d ∧ d.Proper := by
  let start : Moment := ⟨some ⟨1979, 5, 27⟩, none, none⟩
  let t : Toml := .table [("from", .moment start),
    ("limits", .array [.integer 5, .float .infinity]),
    ("until", .moment ⟨some ⟨1980, 1, 2⟩, none, none⟩)]
  let u : Toml := .table [("limits", .array [.integer 5, .float .undefined]),
    ("until", .string "1980-01-02"), ("from", .moment start)]
  have day (d : Date) : Moment.InRange ⟨some d, none, none⟩ := nofun
  have limits (x : Decimal.Double) : (Toml.array [.integer 5, .float x]).Proper :=
    .array (List.forall_mem_cons.mpr ⟨.integer 5, List.forall_mem_singleton.mpr (.float x)⟩)
  have three {a b c : String × Toml} (first : a.2.Proper) (second : b.2.Proper)
      (third : c.2.Proper) : (Toml.table [a, b, c]).Proper :=
    .table (List.forall_mem_cons.mpr ⟨first,
      List.forall_mem_cons.mpr ⟨second, List.forall_mem_singleton.mpr third⟩⟩)
  have proper : t.Proper := three (.moment (day _)) (limits _) (.moment (day _))
  have proper' : u.Proper := three (limits _) (.string _) (.moment (day _))
  have same : t.toValue = u.toValue := rfl
  obtain ⟨_, _, _, null, _, _, agrees, moments, reads⟩ := toValue_embeds
  obtain ⟨d, read⟩ := Option.isSome_iff_exists.mp
    (by decide +kernel : (parse? "from=1979-05-27").isSome = true)
  exact ⟨t, u, start, start, proper, proper', same, (agrees t u).mp same, rfl, rfl,
    moments t u proper proper' same [.key "from"] start start rfl rfl, rfl, rfl,
    (null t _).mpr ⟨.infinity, rfl, by decide⟩, d, read, reads _ d read⟩

end Toml

end AssetPlan
