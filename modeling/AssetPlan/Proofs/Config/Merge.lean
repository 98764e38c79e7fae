import AssetPlan.Config.Merge
import AssetPlan.Proofs.Except
import AssetPlan.Proofs.Value.Ordered

/-! # Merging key by key

A merge succeeds on values of one class only. On mappings it is decided at each key on its own:
the merge fails if what stands at some key below and above cannot be merged, and otherwise it has
at each key what `joined?` gives for that key. This describes the merge of two mappings completely,
without the order in which the overlay's entries are taken.
-/

namespace AssetPlan.Value

/-- The classes of values that a merge tells apart. -/
inductive Class where
  | scalar
  | sequence
  | mapping
deriving DecidableEq, Repr

def classOf : Value → Class
  | .object _ => .mapping
  | .array _ => .sequence
  | _ => .scalar

theorem classOf_eq_scalar_iff {v : Value} : v.classOf = .scalar ↔ v.isScalar := by
  cases v <;> simp [classOf, isScalar]

theorem classOf_eq_sequence_iff {v : Value} :
    v.classOf = .sequence ↔ ∃ items, v = .array items := by
  cases v <;> simp [classOf]

theorem classOf_eq_mapping_iff {v : Value} :
    v.classOf = .mapping ↔ ∃ entries, v = .object entries := by
  cases v <;> simp [classOf]

@[simp] theorem classOf_object (entries : Entries) : (Value.object entries).classOf = .mapping :=
  rfl

end AssetPlan.Value

namespace AssetPlan.Config

open Entries Value

/-- All that a successful merge can be. -/
inductive Merges : Value → Value → Value → Prop
  | scalar {base overlay : Value} (below : base.isScalar) (above : overlay.isScalar) :
    Merges base overlay overlay
  | sequence (items more : List Value) : Merges (.array items) (.array more) (.array (items ++ more))
  | mapping {entries overlay merged : Entries} (success : mergeEntries entries overlay = .ok merged) :
    Merges (.object entries) (.object overlay) (.object merged)

theorem merge_of_isScalar {base overlay : Value} (scalar : overlay.isScalar) :
    merge base overlay =
      if base.isScalar then .ok overlay else .error ⟨[], .of base, .of overlay⟩ := by
  cases overlay <;> first | rw [merge] <;> simp | cases scalar

theorem merge_object (entries overlay : Entries) :
    merge (.object entries) (.object overlay) = (mergeEntries entries overlay).map .object := by
  rw [merge]

theorem merge_eq_ok_iff {base overlay merged : Value} :
    merge base overlay = .ok merged ↔ Merges base overlay merged := by
  constructor
  · intro success
    rcases isScalar_or_cases overlay with scalar | ⟨more, rfl⟩ | ⟨above, rfl⟩
    · rw [merge_of_isScalar scalar] at success
      split at success
      next below =>
        cases success
        exact .scalar below scalar
      next => cases success
    · cases base <;> rw [merge] at success <;> cases success
      exact .sequence _ _
    · cases base with
      | object entries =>
        rw [merge_object] at success
        obtain ⟨result, inner, rfl⟩ := Except.map_eq_ok_iff.mp success
        exact .mapping inner
      | _ => rw [merge] at success <;> cases success
  · rintro (⟨below, above⟩ | ⟨items, more⟩ | success)
    · rw [merge_of_isScalar above, if_pos below]
    · rw [merge]
    · rw [merge_object]
      exact Except.map_eq_ok_iff.mpr ⟨_, success, rfl⟩

/-- The empty mapping changes nothing when it is merged onto a mapping. -/
theorem merges_empty_iff {entries : Entries} {merged : Value} :
    Merges (.object entries) (.object []) merged ↔ merged = .object entries := by
  rw [← merge_eq_ok_iff, merge_object, mergeEntries, Except.map, Except.ok.injEq, eq_comm]

theorem Merges.classOf_eq {base overlay merged : Value} (merges : Merges base overlay merged) :
    merged.classOf = base.classOf ∧ overlay.classOf = base.classOf := by
  cases merges with
  | scalar below above =>
    rw [classOf_eq_scalar_iff.mpr below, classOf_eq_scalar_iff.mpr above]
    exact ⟨rfl, rfl⟩
  | sequence => exact ⟨rfl, rfl⟩
  | mapping => exact ⟨rfl, rfl⟩

theorem merges_iff_of_isScalar {base overlay merged : Value} (scalar : overlay.isScalar) :
    Merges base overlay merged ↔ base.isScalar ∧ merged = overlay := by
  constructor
  · rintro (⟨below, _⟩ | _ | _)
    · exact ⟨below, rfl⟩
    · cases scalar
    · cases scalar
  · rintro ⟨below, rfl⟩
    exact .scalar below scalar

theorem merges_iff_of_isScalar_base {base overlay merged : Value} (scalar : base.isScalar) :
    Merges base overlay merged ↔ overlay.isScalar ∧ merged = overlay := by
  constructor
  · rintro (⟨_, above⟩ | _ | _)
    · exact ⟨above, rfl⟩
    · cases scalar
    · cases scalar
  · rintro ⟨above, rfl⟩
    exact .scalar scalar above

/-- What a merge has at a key, from what stands there below and above; none if these conflict. -/
def joined? : Option Value → Option Value → Option (Option Value)
  | below, none => some below
  | none, some above => some (some above)
  | some below, some above => (merge below above).toOption.map some

@[simp] theorem joined?_none_right (below : Option Value) : joined? below none = some below := by
  cases below <;> rfl

@[simp] theorem joined?_none_left (above : Option Value) : joined? none above = some above := by
  cases above <;> rfl

theorem joined?_some (below above : Value) :
    joined? (some below) (some above) = (merge below above).toOption.map some := rfl

theorem joined?_some_eq_some_iff {below above : Value} {result : Option Value} :
    joined? (some below) (some above) = some result ↔
      ∃ merged, Merges below above merged ∧ result = some merged := by
  rw [joined?_some, Option.map_eq_some_iff]
  simp only [Except.toOption_eq_some_iff, merge_eq_ok_iff, eq_comm (a := result)]

/-- What a merge has at a key stands on one side only, or is the merge of both sides. -/
theorem joined?_cases {below above result : Option Value} (joins : joined? below above = some result) :
    (above = none ∧ result = below) ∨ (below = none ∧ result = above) ∨
      ∃ v w merged, below = some v ∧ above = some w ∧ result = some merged ∧ Merges v w merged := by
  cases above with
  | none =>
    rw [joined?_none_right, Option.some.injEq] at joins
    exact .inl ⟨rfl, joins.symm⟩
  | some w =>
    cases below with
    | none =>
      rw [joined?_none_left, Option.some.injEq] at joins
      exact .inr (.inl ⟨rfl, joins.symm⟩)
    | some v =>
      obtain ⟨merged, merges, same⟩ := joined?_some_eq_some_iff.mp joins
      exact .inr (.inr ⟨v, w, merged, rfl, rfl, same, merges⟩)

/-- The first entry of an overlay takes effect at its key; the rest goes on from there. -/
theorem mergeEntries_cons_eq_ok_iff {entries merged : Entries} {key : String} {above : Value}
    {rest : List (String × Value)} :
    mergeEntries entries ((key, above) :: rest) = .ok merged ↔
      ∃ value, joined? (find? key entries) (some above) = some (some value) ∧
        mergeEntries (Entries.insert key value entries) rest = .ok merged := by
  rw [mergeEntries]
  cases find? key entries with
  | none => simp
  | some below =>
    rw [joined?_some]
    cases found : merge below above <;> simp [Except.toOption, found]

theorem mergeEntries_ascending {entries overlay merged : Entries} (ascending : Ascending entries)
    (success : mergeEntries entries overlay = .ok merged) : Ascending merged := by
  induction overlay generalizing entries with
  | nil =>
    rw [mergeEntries] at success
    cases success
    exact ascending
  | cons entry rest ih =>
    obtain ⟨value, _, later⟩ := mergeEntries_cons_eq_ok_iff.mp success
    exact ih (ascending.insert _ value) later

/-- Away from its first key, an overlay with distinct keys acts as its rest. -/
theorem joined?_rest {entries rest : Entries} {key : String} {above value : Value}
    (ascending : Ascending ((key, above) :: rest)) (query : String)
    (atKey : joined? (find? key entries) (some above) = some (some value)) :
    joined? (find? query (Entries.insert key value entries)) (find? query rest) =
      joined? (find? query entries) (find? query ((key, above) :: rest)) := by
  rw [find?_insert, find?_cons]
  by_cases same : key = query
  · subst same
    rw [if_pos rfl, if_pos rfl, ascending.find?_tail, joined?_none_right, atKey]
  · rw [if_neg same, if_neg same]

/-- What a merge of mappings has at each key. -/
theorem joined?_of_mergeEntries {entries overlay merged : Entries} (ascending : Ascending overlay)
    (success : mergeEntries entries overlay = .ok merged) (key : String) :
    joined? (find? key entries) (find? key overlay) = some (find? key merged) := by
  induction overlay generalizing entries with
  | nil =>
    rw [mergeEntries] at success
    cases success
    exact joined?_none_right _
  | cons entry rest ih =>
    obtain ⟨value, atKey, later⟩ := mergeEntries_cons_eq_ok_iff.mp success
    rw [← joined?_rest ascending key atKey]
    exact ih ascending.tail later

/-- A merge of mappings succeeds if no key is in the way. -/
theorem exists_mergeEntries {entries overlay : Entries} (ascending : Ascending overlay)
    (free : ∀ key, ∃ result, joined? (find? key entries) (find? key overlay) = some result) :
    ∃ merged, mergeEntries entries overlay = .ok merged := by
  induction overlay generalizing entries with
  | nil => exact ⟨entries, by rw [mergeEntries]⟩
  | cons entry rest ih =>
    obtain ⟨key, above⟩ := entry
    obtain ⟨value, atKey⟩ :
        ∃ value, joined? (find? key entries) (some above) = some (some value) := by
      obtain ⟨result, atKey⟩ := free key
      rw [find?_cons, if_pos rfl] at atKey
      cases below : find? key entries with
      | none => exact ⟨above, joined?_none_left _⟩
      | some v =>
        rw [below] at atKey
        obtain ⟨merged, _, rfl⟩ := joined?_some_eq_some_iff.mp atKey
        exact ⟨merged, atKey⟩
    obtain ⟨merged, later⟩ :
        ∃ merged, mergeEntries (Entries.insert key value entries) rest = .ok merged := by
      apply ih ascending.tail
      intro query
      rw [joined?_rest ascending query atKey]
      exact free query
    exact ⟨merged, mergeEntries_cons_eq_ok_iff.mpr ⟨value, atKey, later⟩⟩

/-- A merge of mappings has a property at every key exactly if every key's joined value has it. -/
theorem exists_mergeEntries_iff {entries overlay : Entries} (ascending : Ascending overlay)
    {P : String → Option Value → Prop} :
    (∃ merged, mergeEntries entries overlay = .ok merged ∧ ∀ key, P key (find? key merged)) ↔
      ∀ key, ∃ result, joined? (find? key entries) (find? key overlay) = some result ∧
        P key result := by
  constructor
  · rintro ⟨merged, success, holds⟩ key
    exact ⟨_, joined?_of_mergeEntries ascending success key, holds key⟩
  · intro atKeys
    obtain ⟨merged, success⟩ := exists_mergeEntries ascending fun key =>
      (atKeys key).imp fun _ both => both.1
    refine ⟨merged, success, fun key => ?_⟩
    obtain ⟨result, atKey, holds⟩ := atKeys key
    rw [joined?_of_mergeEntries ascending success key, Option.some.injEq] at atKey
    exact atKey ▸ holds

/-- A merge of mappings in key order is the mapping with the joined value at each key. -/
theorem mergeEntries_eq_ok_iff {entries overlay merged : Entries} (ascending : Ascending entries)
    (ascendingOverlay : Ascending overlay) :
    mergeEntries entries overlay = .ok merged ↔ Ascending merged ∧
      ∀ key, joined? (find? key entries) (find? key overlay) = some (find? key merged) := by
  constructor
  · exact fun success =>
      ⟨mergeEntries_ascending ascending success, joined?_of_mergeEntries ascendingOverlay success⟩
  · rintro ⟨ascendingMerged, atKeys⟩
    obtain ⟨other, success⟩ := exists_mergeEntries ascendingOverlay fun key => ⟨_, atKeys key⟩
    have same : other = merged := (mergeEntries_ascending ascending success).ext ascendingMerged
      fun key => Option.some.inj
        ((joined?_of_mergeEntries ascendingOverlay success key).symm.trans (atKeys key))
    exact same ▸ success

theorem Merges.ordered {base overlay merged : Value} (merges : Merges base overlay merged)
    (below : base.Ordered) (above : overlay.Ordered) : merged.Ordered := by
  induction overlay using byEntries generalizing base merged with
  | scalar v scalar =>
    cases merges with
    | scalar _ scalar => exact ordered_of_isScalar scalar
    | sequence => cases scalar
    | mapping => cases scalar
  | array more =>
    cases merges with
    | scalar _ scalar => cases scalar
    | sequence =>
      rw [ordered_array_iff] at below above ⊢
      exact List.forall_mem_append.mpr ⟨below, above⟩
  | object overlay ih =>
    cases merges with
    | scalar _ scalar => cases scalar
    | mapping success =>
      obtain ⟨ascendingBelow, valuesBelow⟩ := ordered_object_iff.mp below
      obtain ⟨ascendingAbove, valuesAbove⟩ := ordered_object_iff.mp above
      have ascending := mergeEntries_ascending ascendingBelow success
      refine ordered_object_iff.mpr ⟨ascending, entriesOrdered_iff.mpr ?_⟩
      rintro ⟨key, v⟩ member
      have atKey := joined?_of_mergeEntries ascendingAbove success key
      rw [ascending.find?_of_mem member] at atKey
      rcases joined?_cases atKey with ⟨_, found⟩ | ⟨_, found⟩ | both
      · exact valuesBelow.of_find? found.symm
      · exact valuesAbove.of_find? found.symm
      · obtain ⟨v, w, inner, foundBelow, foundAbove, same, merges⟩ := both
        cases same
        exact ih key w foundAbove merges (valuesBelow.of_find? foundBelow)
          (valuesAbove.of_find? foundAbove)

theorem foldlM_merge_cons_eq_ok_iff {base overlay merged : Value} {rest : List Value} :
    (overlay :: rest).foldlM merge base = .ok merged ↔
      ∃ lower, Merges base overlay lower ∧ rest.foldlM merge lower = .ok merged := by
  rw [List.foldlM_cons, Except.bind_eq_ok_iff]
  simp only [merge_eq_ok_iff]

theorem ordered_of_foldlM_merge {base merged : Value} {layers : List Value} (below : base.Ordered)
    (ordered : ∀ layer ∈ layers, layer.Ordered)
    (success : layers.foldlM merge base = .ok merged) : merged.Ordered := by
  induction layers generalizing base with
  | nil =>
    cases success
    exact below
  | cons overlay rest ih =>
    obtain ⟨first, later⟩ := List.forall_mem_cons.mp ordered
    obtain ⟨lower, merges, success⟩ := foldlM_merge_cons_eq_ok_iff.mp success
    exact ih (merges.ordered below first) later success

theorem foldlM_merge_classOf {v merged : Value} {rest : List Value}
    (success : rest.foldlM merge v = .ok merged) :
    ∀ w ∈ v :: rest, w.classOf = merged.classOf := by
  induction rest generalizing v with
  | nil =>
    cases success
    exact List.forall_mem_singleton.mpr rfl
  | cons w rest ih =>
    obtain ⟨lower, merges, success⟩ := foldlM_merge_cons_eq_ok_iff.mp success
    obtain ⟨ofLower, ofRest⟩ := List.forall_mem_cons.mp (ih success)
    obtain ⟨same, overlaySame⟩ := merges.classOf_eq
    refine List.forall_mem_cons.mpr ⟨same ▸ ofLower, List.forall_mem_cons.mpr ⟨?_, ofRest⟩⟩
    rw [overlaySame, ← same, ofLower]

/-- Layers merge to a mapping. -/
theorem exists_entries_of_mergeLayers {merged : Value} {layers : List Value}
    (success : mergeLayers layers = .ok merged) : ∃ entries, merged = .object entries :=
  classOf_eq_mapping_iff.mp (foldlM_merge_classOf success (.object []) List.mem_cons_self).symm

theorem ordered_of_mergeLayers {merged : Value} {layers : List Value}
    (ordered : ∀ layer ∈ layers, layer.Ordered) (success : mergeLayers layers = .ok merged) :
    merged.Ordered :=
  ordered_of_foldlM_merge (by decide) ordered success

end AssetPlan.Config
