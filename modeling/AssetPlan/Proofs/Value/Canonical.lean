import AssetPlan.Proofs.Value.Ordered

/-! # Values with their mappings rearranged

A typed value is written with its fields in their declared order. As a value among others its
mappings are put in key order, at every level. What stands at a key is the same in both, which is
all that a reader looks at, and a value that is in order already does not change.
-/

namespace AssetPlan

open Entries

namespace Value

/-- Only the order of entries in mappings changes, if no key stands twice. -/
structure Arranges (f : Value → Value) : Prop where
  scalar : ∀ {v : Value}, v.isScalar → f v = v
  array : ∀ items, f (.array items) = .array (items.map f)
  object : ∀ {entries : Entries}, entries.keys.Nodup → ∃ arranged : Entries,
    f (.object entries) = .object arranged ∧ arranged.keys.Nodup ∧
      ∀ key, find? key arranged = (find? key entries).map f

/-- Each entry of a rearranged mapping was there before, and what is found at a key too. -/
theorem Arranges.exists_arranged {f : Value → Value} (arranges : Arranges f) {entries : Entries}
    (distinct : entries.keys.Nodup) : ∃ arranged : Entries, f (.object entries) = .object arranged ∧
      (∀ key, find? key arranged = (find? key entries).map f) ∧
        ∀ {key v}, (key, v) ∈ arranged → ∃ w, (key, w) ∈ entries ∧ f w = v := by
  obtain ⟨arranged, shape, distinct', found⟩ := arranges.object distinct
  refine ⟨arranged, shape, found, fun {key v} member => ?_⟩
  have here : (find? key entries).map f = some v :=
    (found key).symm.trans (find?_of_mem_of_nodup distinct' member)
  obtain ⟨w, there, same⟩ := Option.map_eq_some_iff.mp here
  exact ⟨w, mem_of_find? there, same⟩

theorem arranges_id : Arranges id where
  scalar _ := rfl
  array items := by rw [List.map_id, id]
  object {entries} distinct := ⟨entries, rfl, distinct, fun key => by rw [Option.map_id, id]⟩

theorem canonicalItems_eq_map (items : List Value) :
    canonicalItems items = items.map canonical := by
  induction items with
  | nil => rw [canonicalItems, List.map_nil]
  | cons v rest ih => rw [canonicalItems, ih, List.map_cons]

theorem find?_canonicalEntries (key : String) (entries : Entries) :
    find? key (canonicalEntries entries) = (find? key entries).map canonical := by
  induction entries with
  | nil => rw [canonicalEntries, find?_nil, Option.map_none]
  | cons entry rest ih =>
    obtain ⟨k, v⟩ := entry
    rw [canonicalEntries, find?_insert, find?_cons, ih]
    split <;> rfl

theorem ascending_canonicalEntries (entries : Entries) : Ascending (canonicalEntries entries) := by
  induction entries with
  | nil =>
    rw [canonicalEntries]
    exact ascending_nil
  | cons entry rest ih =>
    rw [canonicalEntries]
    exact ih.insert _ _

theorem arranges_canonical : Arranges canonical where
  scalar {v} scalar := by
    cases v with
    | array items => cases scalar
    | object entries => cases scalar
    | _ => rw [canonical] <;> simp
  array items := by rw [canonical, canonicalItems_eq_map]
  object {entries} _ := by
    refine ⟨canonicalEntries entries, by rw [canonical], ?_, fun key => ?_⟩
    · exact (ascending_canonicalEntries entries).nodup_keys
    · exact find?_canonicalEntries key entries

mutual

theorem canonical_of_ordered : (v : Value) → v.Ordered → v.canonical = v
  | .array items, ordered => by
    rw [canonical, canonicalItems_of_ordered items ordered]
  | .object entries, ordered => by
    rw [Ordered] at ordered
    rw [canonical, canonicalEntries_of_ordered entries ordered.1 ordered.2]
  | .null, _ => arranges_canonical.scalar rfl
  | .bool _, _ => arranges_canonical.scalar rfl
  | .number _, _ => arranges_canonical.scalar rfl
  | .string _, _ => arranges_canonical.scalar rfl

theorem canonicalItems_of_ordered :
    (items : List Value) → ItemsOrdered items → canonicalItems items = items
  | [], _ => by rw [canonicalItems]
  | v :: rest, ordered => by
    rw [ItemsOrdered] at ordered
    rw [canonicalItems, canonical_of_ordered v ordered.1, canonicalItems_of_ordered rest ordered.2]

theorem canonicalEntries_of_ordered : (entries : List (String × Value)) → Ascending entries →
    EntriesOrdered entries → canonicalEntries entries = entries
  | [], _, _ => by rw [canonicalEntries]
  | (key, v) :: rest, ascending, ordered => by
    rw [EntriesOrdered] at ordered
    rw [canonicalEntries, canonical_of_ordered v ordered.1,
      canonicalEntries_of_ordered rest ascending.tail ordered.2, ascending.insert_eq_cons]

end

end Value

end AssetPlan
