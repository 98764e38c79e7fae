import AssetPlan.Proofs.Value.Entries
import AssetPlan.Value.Json.Reader

/-! # Values with ordered mappings

`Value.Ordered` holds of a value whose mappings all have strictly ascending keys: two such values
are equal as soon as they agree at every key. Insertions keep it, and the JSON reader delivers it.
-/

namespace AssetPlan.Value

open Entries

/-- Induction on what stands at the keys of mappings. Items of sequences are not looked into. -/
@[elab_as_elim]
theorem byEntries {motive : Value → Prop} (scalar : ∀ v : Value, v.isScalar → motive v)
    (array : ∀ items, motive (.array items))
    (object : ∀ entries, (∀ key v, find? key entries = some v → motive v) →
      motive (.object entries)) (v : Value) : motive v := by
  match v with
  | .null => exact scalar _ rfl
  | .bool _ => exact scalar _ rfl
  | .number _ => exact scalar _ rfl
  | .string _ => exact scalar _ rfl
  | .array items => exact array items
  | .object entries =>
    refine object entries fun key inner found => ?_
    have smaller : sizeOf (key, inner) < sizeOf entries :=
      List.sizeOf_lt_of_mem (mem_of_find? found)
    exact byEntries scalar array object inner
termination_by sizeOf v
decreasing_by
  simp only [Prod.mk.sizeOf_spec, Value.object.sizeOf_spec] at smaller ⊢
  omega

theorem isScalar_or_cases (v : Value) :
    v.isScalar ∨ (∃ items, v = .array items) ∨ ∃ entries, v = .object entries := by
  cases v <;> simp [isScalar]

@[simp] theorem get?_object (key : String) (entries : Entries) :
    (Value.object entries).get? key = find? key entries := rfl

theorem reach_cons (v : Value) (key : String) (keys : List String) :
    v.reach (key :: keys) = (v.get? key).bind fun inner => inner.reach keys := rfl

@[simp] theorem reach_nil (v : Value) : v.reach [] = some v := rfl

theorem ordered_of_isScalar {v : Value} (scalar : v.isScalar) : v.Ordered := by
  cases v <;> simp_all [Ordered, isScalar]

theorem ordered_object_iff {entries : Entries} :
    (Value.object entries).Ordered ↔ Ascending entries ∧ EntriesOrdered entries := by
  rw [Ordered]

theorem ordered_array_iff {items : List Value} :
    (Value.array items).Ordered ↔ ∀ v ∈ items, v.Ordered := by
  rw [Ordered]
  induction items with
  | nil => simp [ItemsOrdered]
  | cons v rest ih => rw [ItemsOrdered, ih, List.forall_mem_cons]

theorem entriesOrdered_iff {entries : Entries} :
    EntriesOrdered entries ↔ ∀ entry ∈ entries, entry.2.Ordered := by
  induction entries with
  | nil => simp [EntriesOrdered]
  | cons entry rest ih => rw [EntriesOrdered, ih, List.forall_mem_cons]

theorem EntriesOrdered.of_find? {entries : Entries} (ordered : EntriesOrdered entries)
    {key : String} {v : Value} (found : find? key entries = some v) : v.Ordered :=
  entriesOrdered_iff.mp ordered _ (mem_of_find? found)

theorem EntriesOrdered.insert {entries : Entries} (ordered : EntriesOrdered entries)
    (key : String) {v : Value} (inner : v.Ordered) :
    EntriesOrdered (Entries.insert key v entries) := by
  induction entries with
  | nil => exact ⟨inner, ordered⟩
  | cons entry rest ih =>
    obtain ⟨k, w⟩ := entry
    obtain ⟨first, later⟩ := ordered
    simp only [Entries.insert]
    split
    · exact ⟨inner, later⟩
    · split
      · exact ⟨inner, first, later⟩
      · exact ⟨first, ih later⟩

instance (entries : Entries) : Decidable (Ascending entries) :=
  inferInstanceAs (Decidable (List.Pairwise _ _))

mutual
/-- Compares the keys of every mapping inside. -/
def decideOrdered : (v : Value) → Decidable v.Ordered
  | .array items => decideItemsOrdered items
  | .object entries => @instDecidableAnd _ _ _ (decideEntriesOrdered entries)
  | .null => .isTrue trivial
  | .bool _ => .isTrue trivial
  | .number _ => .isTrue trivial
  | .string _ => .isTrue trivial
def decideItemsOrdered : (items : List Value) → Decidable (ItemsOrdered items)
  | [] => .isTrue trivial
  | v :: rest => @instDecidableAnd _ _ (decideOrdered v) (decideItemsOrdered rest)
def decideEntriesOrdered : (entries : List (String × Value)) → Decidable (EntriesOrdered entries)
  | [] => .isTrue trivial
  | (_, v) :: rest => @instDecidableAnd _ _ (decideOrdered v) (decideEntriesOrdered rest)
end

instance (v : Value) : Decidable v.Ordered := decideOrdered v

theorem ordered_mapping {entries : List (String × Value)}
    (ordered : ∀ entry ∈ entries, entry.2.Ordered) : (mapping entries).Ordered := by
  suffices kept : ∀ result : Entries, Ascending result ∧ EntriesOrdered result →
      (Value.object
        (entries.foldl (fun r entry => Entries.insert entry.1 entry.2 r) result)).Ordered from
    kept [] ⟨ascending_nil, trivial⟩
  induction entries with
  | nil => exact fun result invariant => ordered_object_iff.mpr invariant
  | cons entry rest ih =>
    rintro result ⟨ascending, values⟩
    obtain ⟨first, later⟩ := List.forall_mem_cons.mp ordered
    exact ih later _ ⟨ascending.insert _ _, values.insert _ first⟩

end AssetPlan.Value

namespace AssetPlan.Json

open Value

variable {α : Type} {item : Reader α} {close : Char} {P : α → Prop}

/-- What holds of every item that is read holds of all items of a list. -/
theorem forall_items (sound : ∀ {cs a rest}, item cs = some (a, rest) → P a) {fuel : Nat}
    {cs rest : List Char} {as : List α} (success : items item close fuel cs = some (as, rest)) :
    ∀ a ∈ as, P a := by
  induction fuel generalizing cs rest as with
  | zero => cases success
  | succ fuel ih =>
    simp only [items, Option.bind_eq_bind, Option.bind_eq_some_iff] at success
    obtain ⟨⟨first, left⟩, here, success⟩ := success
    have holds := sound here
    dsimp only at success
    split at success
    next c left' _ =>
      split at success
      · cases success
        exact List.forall_mem_singleton.mpr holds
      · split at success
        · obtain ⟨⟨tail, _⟩, later, same⟩ := Option.bind_eq_some_iff.mp success
          cases same
          exact List.forall_mem_cons.mpr ⟨holds, ih later⟩
        · cases success
    next => cases success

theorem forall_itemsUntil (sound : ∀ {cs a rest}, item cs = some (a, rest) → P a)
    {cs rest : List Char} {as : List α} (success : itemsUntil item close cs = some (as, rest)) :
    ∀ a ∈ as, P a := by
  simp only [itemsUntil] at success
  split at success
  · split at success
    · cases success
      exact List.forall_mem_nil _
    · exact forall_items sound success
  · cases success

theorem entry_sound {read : Reader Value} {P : Value → Prop}
    (sound : ∀ {cs v rest}, read cs = some (v, rest) → P v) {cs rest : List Char}
    {e : String × Value} (success : entry read cs = some (e, rest)) : P e.2 := by
  unfold entry at success
  split at success
  · obtain ⟨⟨key, left⟩, _, success⟩ := Option.bind_eq_some_iff.mp success
    dsimp only at success
    split at success
    · obtain ⟨⟨v, _⟩, here, same⟩ := Option.bind_eq_some_iff.mp success
      cases same
      exact sound here
    · cases success
  · cases success

theorem isScalar_of_scalar {cs rest : List Char} {v : Value}
    (success : value.scalar cs = some (v, rest)) : v.isScalar := by
  simp only [value.scalar] at success
  split at success
  · obtain ⟨_, _, same⟩ := Option.map_eq_some_iff.mp success
    cases same
    rfl
  iterate 3
    · simp only [word, Option.ite_none_right_eq_some, Option.some.injEq, Prod.mk.injEq] at success
      exact success.2.1 ▸ rfl
  · obtain ⟨_, _, same⟩ := Option.map_eq_some_iff.mp success
    cases same
    rfl

/-- A value that is read has its mappings in order. -/
theorem ordered_of_value {depth : Nat} {cs rest : List Char} {v : Value}
    (success : value depth cs = some (v, rest)) : v.Ordered := by
  induction depth generalizing cs rest v with
  | zero => exact ordered_of_isScalar (isScalar_of_scalar success)
  | succ depth ih =>
    simp only [value] at success
    split at success
    · obtain ⟨⟨vs, _⟩, listed, same⟩ := Option.map_eq_some_iff.mp success
      cases same
      exact ordered_array_iff.mpr (forall_itemsUntil ih listed)
    · obtain ⟨⟨es, _⟩, listed, same⟩ := Option.map_eq_some_iff.mp success
      cases same
      exact ordered_mapping (forall_itemsUntil (P := fun e => e.2.Ordered) (entry_sound ih) listed)
    · exact ordered_of_isScalar (isScalar_of_scalar success)

theorem ordered_of_read? {text : String} {v : Value} (success : read? text = some v) :
    v.Ordered := by
  obtain ⟨⟨w, rest⟩, here, success⟩ := Option.bind_eq_some_iff.mp success
  dsimp only at success
  split at success
  · cases success
    exact ordered_of_value here
  · cases success

end AssetPlan.Json
