import AssetPlan.Proofs.Config.Merge

/-! # Layers path by path

At each path, merging layers amounts to merging the values that the layers have there, lowest layer
first. So layers can be merged exactly if no path leads to values of different classes, and a path
leads to the last of several scalars, to all items of several sequences, or to a mapping with the
keys of all mappings. The invariant of the fold is `mergeValues_valuesAt`: the merge of the layers
seen so far stands for all of them at every path.
-/

namespace AssetPlan.Value

/-- The items of a sequence. -/
def items : Value → List Value
  | .array items => items
  | _ => []

/-- The keys of a mapping. -/
def keys : Value → List String
  | .object entries => Entries.keys entries
  | _ => []

theorem mem_keys_iff {key : String} {v : Value} : key ∈ v.keys ↔ ∃ inner, v.get? key = some inner := by
  cases v with
  | object entries => exact Entries.mem_keys_iff
  | _ => simp [keys, get?]

theorem get?_of_isScalar {v : Value} (scalar : v.isScalar) (key : String) : v.get? key = none := by
  cases v <;> first | rfl | cases scalar

theorem reach_append (v : Value) (keys : List String) (key : String) :
    v.reach (keys ++ [key]) = (v.reach keys).bind fun inner => inner.get? key := by
  induction keys generalizing v with
  | nil => simp [reach_cons]
  | cons first rest ih =>
    rw [List.cons_append, reach_cons, reach_cons, Option.bind_assoc]
    exact Option.bind_congr fun inner _ => ih inner

end AssetPlan.Value

namespace AssetPlan.Config

open Entries Value

/-- At each path a merge has what the values below and above give there. -/
theorem Merges.joined?_reach {base overlay merged : Value} (merges : Merges base overlay merged)
    (ordered : overlay.Ordered) (keys : List String) :
    joined? (base.reach keys) (overlay.reach keys) = some (merged.reach keys) := by
  induction keys generalizing base overlay merged with
  | nil => exact joined?_some_eq_some_iff.mpr ⟨merged, merges, rfl⟩
  | cons key keys ih =>
    simp only [reach_cons]
    cases merges with
    | scalar below above =>
      rw [get?_of_isScalar below, get?_of_isScalar above]
      rfl
    | sequence => rfl
    | mapping success =>
      obtain ⟨ascending, values⟩ := ordered_object_iff.mp ordered
      have atKey := joined?_of_mergeEntries ascending success key
      simp only [get?_object]
      rcases joined?_cases atKey with ⟨absent, same⟩ | ⟨absent, same⟩ | both
      · rw [absent, same]
        exact joined?_none_right _
      · rw [absent, same]
        exact joined?_none_left _
      · obtain ⟨below, above, inner, foundBelow, foundAbove, same, merges⟩ := both
        rw [foundBelow, foundAbove, same]
        exact ih merges (values.of_find? foundAbove)

/-- A merge succeeds if no path leads to values of different classes. -/
theorem exists_merges {base overlay : Value} (ordered : overlay.Ordered)
    (same : ∀ keys, ∀ v ∈ base.reach keys, ∀ w ∈ overlay.reach keys, v.classOf = w.classOf) :
    ∃ merged, Merges base overlay merged := by
  have root := same [] base rfl overlay rfl
  induction overlay using byEntries generalizing base with
  | scalar v scalar =>
    rw [classOf_eq_scalar_iff.mpr scalar, classOf_eq_scalar_iff] at root
    exact ⟨v, .scalar root scalar⟩
  | array more =>
    obtain ⟨items, rfl⟩ := classOf_eq_sequence_iff.mp root
    exact ⟨_, .sequence items more⟩
  | object overlay ih =>
    obtain ⟨entries, rfl⟩ := classOf_eq_mapping_iff.mp root
    obtain ⟨ascending, values⟩ := ordered_object_iff.mp ordered
    obtain ⟨merged, success⟩ : ∃ merged, mergeEntries entries overlay = .ok merged := by
      apply exists_mergeEntries ascending
      intro key
      cases foundAbove : find? key overlay with
      | none => exact ⟨_, joined?_none_right _⟩
      | some above =>
        cases foundBelow : find? key entries with
        | none => exact ⟨_, joined?_none_left _⟩
        | some below =>
          have inside : ∀ keys, ∀ v ∈ below.reach keys, ∀ w ∈ above.reach keys,
              v.classOf = w.classOf := by
            intro keys v atBelow w atAbove
            apply same (key :: keys) v _ w _
            · simpa [reach_cons, foundBelow] using atBelow
            · simpa [reach_cons, foundAbove] using atAbove
          obtain ⟨inner, merges⟩ := ih key above foundAbove (values.of_find? foundAbove) inside
            (inside [] below rfl above rfl)
          exact ⟨some inner, joined?_some_eq_some_iff.mpr ⟨inner, merges, rfl⟩⟩
    exact ⟨_, .mapping success⟩

/-- The values that layers have at the end of a path, lowest layer first. -/
def valuesAt (layers : List Value) (keys : List String) : List Value :=
  layers.filterMap fun layer => layer.reach keys

/-- The merge of the values at one path; nothing if there are none. -/
def mergeValues : List Value → Except Conflict (Option Value)
  | [] => .ok none
  | v :: rest => (rest.foldlM merge v).map some

/-- Wherever layers have values, these are of one class. -/
def Compatible (layers : List Value) : Prop :=
  ∀ keys, ∃ c, ∀ v ∈ valuesAt layers keys, v.classOf = c

theorem valuesAt_cons (layer : Value) (rest : List Value) (keys : List String) :
    valuesAt (layer :: rest) keys = (layer.reach keys).toList ++ valuesAt rest keys := by
  cases found : layer.reach keys <;> simp [valuesAt, found]

/-- The merge of two layers stands for both of them in the class at each path. -/
private theorem classes_of_merges {base overlay lower : Value} {rest : List Value}
    (merges : Merges base overlay lower) (ordered : overlay.Ordered) (keys : List String)
    (c : Value.Class) :
    (∀ v ∈ valuesAt (base :: overlay :: rest) keys, v.classOf = c) ↔
      ∀ v ∈ valuesAt (lower :: rest) keys, v.classOf = c := by
  simp only [valuesAt_cons, List.forall_mem_append]
  rw [← and_assoc]
  refine and_congr_left fun _ => ?_
  rcases joined?_cases (merges.joined?_reach ordered keys) with
    ⟨absent, same⟩ | ⟨absent, same⟩ | both
  · simp [absent, same]
  · simp [absent, same]
  · obtain ⟨below, above, inner, foundBelow, foundAbove, same, merges⟩ := both
    simp [foundBelow, foundAbove, same, merges.classOf_eq]

/-- Layers can be merged onto a value exactly if no path leads to values of different classes. -/
theorem exists_foldlM_merge_iff {base : Value} {layers : List Value}
    (ordered : ∀ layer ∈ layers, layer.Ordered) :
    (∃ merged, layers.foldlM merge base = .ok merged) ↔ Compatible (base :: layers) := by
  induction layers generalizing base with
  | nil =>
    refine ⟨fun _ keys => ?_, fun _ => ⟨base, rfl⟩⟩
    cases found : base.reach keys with
    | none => exact ⟨.scalar, by simp [valuesAt, found]⟩
    | some v => exact ⟨v.classOf, by simp [valuesAt, found]⟩
  | cons overlay rest ih =>
    obtain ⟨first, later⟩ := List.forall_mem_cons.mp ordered
    constructor
    · rintro ⟨merged, success⟩ keys
      obtain ⟨lower, merges, success⟩ := foldlM_merge_cons_eq_ok_iff.mp success
      obtain ⟨c, classes⟩ := (ih later).mp ⟨merged, success⟩ keys
      exact ⟨c, (classes_of_merges merges first keys c).mpr classes⟩
    · intro compatible
      obtain ⟨lower, merges⟩ : ∃ lower, Merges base overlay lower := by
        refine exists_merges first fun keys v atBase w atOverlay => ?_
        obtain ⟨c, classes⟩ := compatible keys
        rw [classes v (by simp [valuesAt, Option.mem_def.mp atBase]),
          classes w (by simp [valuesAt_cons, Option.mem_def.mp atOverlay])]
      have above : Compatible (lower :: rest) := fun keys =>
        (compatible keys).imp fun c classes => (classes_of_merges merges first keys c).mp classes
      obtain ⟨merged, success⟩ := (ih later).mpr above
      exact ⟨merged, foldlM_merge_cons_eq_ok_iff.mpr ⟨lower, merges, success⟩⟩

/-- At each path a merge of layers is the merge of their values there. -/
theorem mergeValues_valuesAt {base merged : Value} {layers : List Value}
    (ordered : ∀ layer ∈ layers, layer.Ordered)
    (success : layers.foldlM merge base = .ok merged) (keys : List String) :
    mergeValues (valuesAt (base :: layers) keys) = .ok (merged.reach keys) := by
  induction layers generalizing base with
  | nil =>
    cases success
    rw [valuesAt_cons]
    cases merged.reach keys <;> rfl
  | cons overlay rest ih =>
    obtain ⟨first, later⟩ := List.forall_mem_cons.mp ordered
    obtain ⟨lower, merges, success⟩ := foldlM_merge_cons_eq_ok_iff.mp success
    rw [← ih later success]
    simp only [valuesAt_cons]
    rcases joined?_cases (merges.joined?_reach first keys) with
      ⟨absent, same⟩ | ⟨absent, same⟩ | both
    · rw [absent, same]
      rfl
    · rw [absent, same]
      rfl
    · obtain ⟨below, above, inner, foundBelow, foundAbove, same, merges⟩ := both
      rw [foundBelow, foundAbove, same]
      simp only [Option.toList_some, List.singleton_append, mergeValues, List.foldlM_cons,
        merge_eq_ok_iff.mpr merges]
      rfl

/-- What values at one path amount to: the last of scalars, all items of sequences in order, a
mapping with the keys of all mappings. -/
def Layered (vs : List Value) (v : Value) : Prop :=
  (∀ w ∈ vs, w.classOf = v.classOf) ∧
    match v with
    | .object entries => ∀ key, key ∈ Entries.keys entries ↔ ∃ w ∈ vs, key ∈ w.keys
    | .array items => items = vs.flatMap Value.items
    | scalar => vs.getLast? = some scalar

theorem foldlM_merge_scalar {v merged : Value} {rest : List Value}
    (success : rest.foldlM merge v = .ok merged) (scalar : merged.classOf = .scalar) :
    (v :: rest).getLast? = some merged := by
  induction rest generalizing v with
  | nil =>
    cases success
    rfl
  | cons w rest ih =>
    obtain ⟨lower, merges, later⟩ := foldlM_merge_cons_eq_ok_iff.mp success
    have scalarAbove : w.classOf = .scalar :=
      scalar ▸ foldlM_merge_classOf success w (List.mem_cons_of_mem _ List.mem_cons_self)
    have replaced : lower = w := by
      cases merges with
      | scalar => rfl
      | sequence => cases scalarAbove
      | mapping => cases scalarAbove
    rw [List.getLast?_cons_cons, ← replaced]
    exact ih later

theorem foldlM_merge_sequence {v : Value} {items : List Value} {rest : List Value}
    (success : rest.foldlM merge v = .ok (.array items)) :
    items = (v :: rest).flatMap Value.items := by
  induction rest generalizing v with
  | nil =>
    cases success
    exact (List.append_nil items).symm
  | cons w rest ih =>
    obtain ⟨lower, merges, later⟩ := foldlM_merge_cons_eq_ok_iff.mp success
    have sequence : w.classOf = .sequence :=
      foldlM_merge_classOf success w (List.mem_cons_of_mem _ List.mem_cons_self)
    have appended : lower.items = v.items ++ w.items := by
      cases merges with
      | scalar _ scalar => rw [classOf_eq_scalar_iff.mpr scalar] at sequence; cases sequence
      | sequence => rfl
      | mapping => cases sequence
    rw [ih later, List.flatMap_cons, List.flatMap_cons, List.flatMap_cons, appended,
      List.append_assoc]

/-- A merge has a value at a path exactly if one of the layers has. -/
theorem reach_eq_none_iff_valuesAt {base merged : Value} {layers : List Value}
    (ordered : ∀ layer ∈ layers, layer.Ordered)
    (success : layers.foldlM merge base = .ok merged) (keys : List String) :
    merged.reach keys = none ↔ valuesAt (base :: layers) keys = [] := by
  have atKeys := mergeValues_valuesAt ordered success keys
  cases found : valuesAt (base :: layers) keys with
  | nil =>
    rw [found, mergeValues, Except.ok.injEq] at atKeys
    simp [← atKeys]
  | cons v rest =>
    rw [found] at atKeys
    obtain ⟨result, _, same⟩ := Except.map_eq_ok_iff.mp atKeys
    simp [← same]

theorem valuesAt_append (layers : List Value) (keys : List String) (key : String) :
    valuesAt layers (keys ++ [key]) = (valuesAt layers keys).filterMap fun v => v.get? key := by
  rw [valuesAt, valuesAt, List.filterMap_filterMap]
  simp only [reach_append]

theorem layered_of_foldlM_merge {base merged v : Value} {layers : List Value}
    (ordered : ∀ layer ∈ layers, layer.Ordered)
    (success : layers.foldlM merge base = .ok merged) {keys : List String}
    (reached : merged.reach keys = some v) : Layered (valuesAt (base :: layers) keys) v := by
  have atKeys := mergeValues_valuesAt ordered success keys
  cases found : valuesAt (base :: layers) keys with
  | nil =>
    rw [found, reached] at atKeys
    cases atKeys
  | cons first rest =>
    rw [found, reached] at atKeys
    obtain ⟨result, folded, same⟩ := Except.map_eq_ok_iff.mp atKeys
    cases same
    refine ⟨foldlM_merge_classOf folded, ?_⟩
    split
    next entries =>
      intro key
      have below := reach_eq_none_iff_valuesAt ordered success (keys ++ [key])
      rw [reach_append, reached, Option.bind_some, get?_object, valuesAt_append, found,
        find?_eq_none_iff, List.filterMap_eq_nil_iff] at below
      rw [← not_iff_not, below]
      simp [Value.mem_keys_iff, Option.eq_none_iff_forall_ne_some]
    next items => exact foldlM_merge_sequence folded
    next notObject notArray =>
      apply foldlM_merge_scalar folded
      rw [classOf_eq_scalar_iff]
      rcases isScalar_or_cases v with scalar | ⟨items, same⟩ | ⟨entries, same⟩
      · exact scalar
      · exact (notArray items same).elim
      · exact (notObject entries same).elim

/-- The empty mapping that a merge starts with has no values inside. -/
theorem valuesAt_empty_cons (layers : List Value) {keys : List String} (inside : keys ≠ []) :
    valuesAt (.object [] :: layers) keys = valuesAt layers keys := by
  cases keys with
  | nil => exact (inside rfl).elim
  | cons key keys => rfl

private theorem valuesAt_nil (layers : List Value) : valuesAt layers [] = layers := by
  simp [valuesAt]

theorem compatible_empty_cons (layers : List Value) :
    Compatible (.object [] :: layers) ↔
      (∀ layer ∈ layers, layer.classOf = .mapping) ∧ Compatible layers := by
  constructor
  · intro compatible
    constructor
    · obtain ⟨c, classes⟩ := compatible []
      rw [valuesAt_nil] at classes
      obtain ⟨first, later⟩ := List.forall_mem_cons.mp classes
      intro layer member
      rw [later layer member, ← first, classOf_object]
    · intro keys
      obtain ⟨c, classes⟩ := compatible keys
      rw [valuesAt_cons] at classes
      exact ⟨c, (List.forall_mem_append.mp classes).2⟩
  · rintro ⟨mappings, compatible⟩ keys
    by_cases inside : keys = []
    · subst inside
      rw [valuesAt_nil]
      exact ⟨.mapping, List.forall_mem_cons.mpr ⟨rfl, mappings⟩⟩
    · rw [valuesAt_empty_cons layers inside]
      exact compatible keys

/-- Layers can be merged exactly if they are mappings and no path leads to values of different
classes. The result is a mapping; a path leads to a value in it if it does so in some layer, and
then to what the values of the layers there amount to. -/
theorem mergeLayers_by_path (layers : List Value) (ordered : ∀ layer ∈ layers, layer.Ordered) :
    ((∃ merged, mergeLayers layers = .ok merged) ↔
      (∀ layer ∈ layers, layer.classOf = .mapping) ∧ Compatible layers) ∧
    ∀ merged, mergeLayers layers = .ok merged →
      merged.classOf = .mapping ∧
      ∀ keys, keys ≠ [] →
        ((merged.reach keys).isSome ↔ ∃ layer ∈ layers, (layer.reach keys).isSome) ∧
        ∀ v, merged.reach keys = some v → Layered (valuesAt layers keys) v := by
  refine ⟨(exists_foldlM_merge_iff ordered).trans (compatible_empty_cons layers), ?_⟩
  intro merged success
  obtain ⟨entries, rfl⟩ := exists_entries_of_mergeLayers success
  refine ⟨rfl, fun keys inside => ⟨?_, fun v reached => ?_⟩⟩
  · have absent := reach_eq_none_iff_valuesAt ordered success keys
    rw [valuesAt_empty_cons layers inside, valuesAt, List.filterMap_eq_nil_iff] at absent
    rw [Option.isSome_iff_ne_none, ne_eq, absent]
    simp only [not_forall, Option.isSome_iff_ne_none, ne_eq, exists_prop]
  · rw [← valuesAt_empty_cons layers inside]
    exact layered_of_foldlM_merge ordered success reached

/-- Three layers with all classes of values, each of them missing somewhere. -/
def threeLayers : List Value := [
  .object [("mode", .string "development"), ("plugins", .array [.string "html"])],
  .object [("output", .object [("path", .string "dist")]), ("plugins", .array [.string "copy"])],
  .object [("mode", .null), ("output", .object [("filename", .string "[name].js")])]]

theorem mergeLayers_by_path_threeLayers :
    (∀ layer ∈ threeLayers, layer.Ordered) ∧
      ∃ merged, mergeLayers threeLayers = .ok merged ∧ merged.reach ["mode"] = some .null ∧
        Layered [.array [.string "html"], .array [.string "copy"]]
          (.array [.string "html", .string "copy"]) ∧
        (merged.reach ["output", "path"]).isSome := by
  have ordered : ∀ layer ∈ threeLayers, layer.Ordered := by decide
  obtain ⟨success, paths⟩ := mergeLayers_by_path threeLayers ordered
  refine ⟨ordered, _, rfl, rfl, ?_, ?_⟩
  · exact ((paths _ rfl).2 ["plugins"] (by decide)).2 _ rfl
  · exact ((paths _ rfl).2 ["output", "path"] (by decide)).1.mpr ⟨_, .tail _ (.head _), rfl⟩

end AssetPlan.Config
