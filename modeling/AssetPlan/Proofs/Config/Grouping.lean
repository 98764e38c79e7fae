import AssetPlan.Proofs.Config.Merge

/-! # Grouping layers

Merging is associative, also in where it fails: three values conflict in one grouping exactly if
they conflict in the other. The conflict that is reported may differ, so the two sides are compared
as options. Layers may therefore be merged in groups. Associativity is decided at each key on its
own (`joined?_bind`) and carried to whole mappings by what a merge has at each key.
-/

namespace AssetPlan.Config

open Entries Value

/-- Both groupings of three values have the same results. -/
def Regroups (a b c : Value) : Prop :=
  ∀ merged, (∃ ab, Merges a b ab ∧ Merges ab c merged) ↔ ∃ bc, Merges b c bc ∧ Merges a bc merged

/-- At one key the two groupings agree, if they do for the three values there. -/
private theorem joined?_regroup {x y z : Option Value}
    (regroups : ∀ a b c, x = some a → y = some b → z = some c → Regroups a b c)
    (result : Option Value) :
    (∃ xy, joined? x y = some xy ∧ joined? xy z = some result) ↔
      ∃ yz, joined? y z = some yz ∧ joined? x yz = some result := by
  cases x with
  | none => simp
  | some a =>
    cases y with
    | none => simp
    | some b =>
      cases z with
      | none => simp
      | some c =>
        have groups := regroups a b c rfl rfl rfl
        constructor
        · rintro ⟨_, first, second⟩
          obtain ⟨ab, left, rfl⟩ := joined?_some_eq_some_iff.mp first
          obtain ⟨merged, right, rfl⟩ := joined?_some_eq_some_iff.mp second
          obtain ⟨bc, left, right⟩ := (groups merged).mp ⟨ab, left, right⟩
          exact ⟨some bc, joined?_some_eq_some_iff.mpr ⟨bc, left, rfl⟩,
            joined?_some_eq_some_iff.mpr ⟨merged, right, rfl⟩⟩
        · rintro ⟨_, first, second⟩
          obtain ⟨bc, left, rfl⟩ := joined?_some_eq_some_iff.mp first
          obtain ⟨merged, right, rfl⟩ := joined?_some_eq_some_iff.mp second
          obtain ⟨ab, left, right⟩ := (groups merged).mpr ⟨bc, left, right⟩
          exact ⟨some ab, joined?_some_eq_some_iff.mpr ⟨ab, left, rfl⟩,
            joined?_some_eq_some_iff.mpr ⟨merged, right, rfl⟩⟩

private theorem mergeEntries_first {xs ys zs merged : Entries} (ascendingX : Ascending xs)
    (ascendingY : Ascending ys) (ascendingZ : Ascending zs) :
    (∃ xy, mergeEntries xs ys = .ok xy ∧ mergeEntries xy zs = .ok merged) ↔
      Ascending merged ∧ ∀ key, ∃ xy, joined? (find? key xs) (find? key ys) = some xy ∧
        joined? xy (find? key zs) = some (find? key merged) := by
  rw [← exists_mergeEntries_iff ascendingY, ← exists_and_left]
  refine exists_congr fun xy => ?_
  rw [and_left_comm]
  refine and_congr_right fun success => ?_
  exact mergeEntries_eq_ok_iff (mergeEntries_ascending ascendingX success) ascendingZ

private theorem mergeEntries_last {xs ys zs merged : Entries} (ascendingX : Ascending xs)
    (ascendingY : Ascending ys) (ascendingZ : Ascending zs) :
    (∃ yz, mergeEntries ys zs = .ok yz ∧ mergeEntries xs yz = .ok merged) ↔
      Ascending merged ∧ ∀ key, ∃ yz, joined? (find? key ys) (find? key zs) = some yz ∧
        joined? (find? key xs) yz = some (find? key merged) := by
  rw [← exists_mergeEntries_iff ascendingZ, ← exists_and_left]
  refine exists_congr fun yz => ?_
  rw [and_left_comm]
  refine and_congr_right fun success => ?_
  exact mergeEntries_eq_ok_iff ascendingX (mergeEntries_ascending ascendingY success)

theorem regroups_of_ordered {a b c : Value} (orderedA : a.Ordered) (orderedB : b.Ordered)
    (orderedC : c.Ordered) : Regroups a b c := by
  intro merged
  induction b using byEntries generalizing a c merged with
  | scalar b scalar =>
    constructor
    · rintro ⟨ab, left, right⟩
      obtain ⟨scalarA, rfl⟩ := (merges_iff_of_isScalar scalar).mp left
      obtain ⟨scalarC, rfl⟩ := (merges_iff_of_isScalar_base scalar).mp right
      exact ⟨merged, .scalar scalar scalarC, .scalar scalarA scalarC⟩
    · rintro ⟨bc, left, right⟩
      obtain ⟨scalarC, rfl⟩ := (merges_iff_of_isScalar_base scalar).mp left
      obtain ⟨scalarA, rfl⟩ := (merges_iff_of_isScalar scalarC).mp right
      exact ⟨b, .scalar scalarA scalar, .scalar scalar scalarC⟩
  | array ys =>
    constructor
    · rintro ⟨ab, left, right⟩
      cases left with
      | scalar _ above => cases above
      | sequence xs =>
        cases right with
        | scalar below => cases below
        | sequence _ zs =>
          rw [List.append_assoc]
          exact ⟨.array (ys ++ zs), .sequence ys zs, .sequence xs (ys ++ zs)⟩
    · rintro ⟨bc, left, right⟩
      cases left with
      | scalar below => cases below
      | sequence _ zs =>
        cases right with
        | scalar _ above => cases above
        | sequence xs =>
          rw [← List.append_assoc]
          exact ⟨.array (xs ++ ys), .sequence xs ys, .sequence (xs ++ ys) zs⟩
  | object ys ih =>
    have group {xs zs result : Entries} (orderedX : (Value.object xs).Ordered)
        (orderedZ : (Value.object zs).Ordered) :
        (∃ xy, mergeEntries xs ys = .ok xy ∧ mergeEntries xy zs = .ok result) ↔
          ∃ yz, mergeEntries ys zs = .ok yz ∧ mergeEntries xs yz = .ok result := by
      obtain ⟨ascendingX, valuesX⟩ := ordered_object_iff.mp orderedX
      obtain ⟨ascendingY, valuesY⟩ := ordered_object_iff.mp orderedB
      obtain ⟨ascendingZ, valuesZ⟩ := ordered_object_iff.mp orderedZ
      rw [mergeEntries_first ascendingX ascendingY ascendingZ,
        mergeEntries_last ascendingX ascendingY ascendingZ]
      refine and_congr_right fun _ => forall_congr' fun key => joined?_regroup ?_ _
      intro x y z foundX foundY foundZ merged
      exact ih key y foundY (valuesX.of_find? foundX) (valuesY.of_find? foundY)
        (valuesZ.of_find? foundZ) merged
    constructor
    · rintro ⟨ab, left, right⟩
      cases left with
      | scalar _ above => cases above
      | mapping left =>
        cases right with
        | scalar below => cases below
        | mapping right =>
          obtain ⟨yz, left, right⟩ := (group orderedA orderedC).mp ⟨_, left, right⟩
          exact ⟨.object yz, .mapping left, .mapping right⟩
    · rintro ⟨bc, left, right⟩
      cases left with
      | scalar below => cases below
      | mapping left =>
        cases right with
        | scalar _ above => cases above
        | mapping right =>
          obtain ⟨xy, left, right⟩ := (group orderedA orderedC).mpr ⟨_, left, right⟩
          exact ⟨.object xy, .mapping left, .mapping right⟩

/-- Layers merged onto a merge are merged onto its overlay first. -/
theorem foldlM_merge_regroup {a b merged : Value} {layers : List Value} (orderedA : a.Ordered)
    (orderedB : b.Ordered) (ordered : ∀ layer ∈ layers, layer.Ordered) :
    (∃ ab, Merges a b ab ∧ layers.foldlM merge ab = .ok merged) ↔
      ∃ above, layers.foldlM merge b = .ok above ∧ Merges a above merged := by
  induction layers generalizing b with
  | nil =>
    constructor
    · rintro ⟨ab, merges, success⟩
      cases success
      exact ⟨b, rfl, merges⟩
    · rintro ⟨above, success, merges⟩
      cases success
      exact ⟨merged, merges, rfl⟩
  | cons layer rest ih =>
    obtain ⟨first, later⟩ := List.forall_mem_cons.mp ordered
    have regroups := regroups_of_ordered orderedA orderedB first
    simp only [foldlM_merge_cons_eq_ok_iff]
    constructor
    · rintro ⟨ab, left, abl, right, success⟩
      obtain ⟨bl, left, right⟩ := (regroups abl).mp ⟨ab, left, right⟩
      obtain ⟨above, success, merges⟩ :=
        (ih (left.ordered orderedB first) later).mp ⟨abl, right, success⟩
      exact ⟨above, ⟨bl, left, success⟩, merges⟩
    · rintro ⟨above, ⟨bl, left, success⟩, merges⟩
      obtain ⟨abl, right, success⟩ :=
        (ih (left.ordered orderedB first) later).mpr ⟨above, success, merges⟩
      obtain ⟨ab, left, right⟩ := (regroups abl).mpr ⟨bl, left, right⟩
      exact ⟨ab, left, abl, right, success⟩

/-- Merging layers onto a mapping is merging their merge onto it. -/
theorem foldlM_merge_eq_ok_iff {entries : Entries} {merged : Value} {layers : List Value}
    (below : (Value.object entries).Ordered) (ordered : ∀ layer ∈ layers, layer.Ordered) :
    layers.foldlM merge (.object entries) = .ok merged ↔
      ∃ above, mergeLayers layers = .ok above ∧ Merges (.object entries) above merged := by
  have empty : (Value.object []).Ordered := by decide
  rw [mergeLayers, ← foldlM_merge_regroup below empty ordered]
  simp [merges_empty_iff]

/-- The merge of layers is the merge of the merges of any two parts. -/
theorem mergeLayers_append_eq_ok_iff {lower upper : List Value} {merged : Value}
    (orderedLower : ∀ layer ∈ lower, layer.Ordered)
    (orderedUpper : ∀ layer ∈ upper, layer.Ordered) :
    mergeLayers (lower ++ upper) = .ok merged ↔
      ∃ below above, mergeLayers lower = .ok below ∧ mergeLayers upper = .ok above ∧
        merge below above = .ok merged := by
  rw [mergeLayers, List.foldlM_append, Except.bind_eq_ok_iff]
  refine exists_congr fun below => ?_
  rw [exists_and_left]
  refine and_congr_right fun success => ?_
  have orderedBelow := ordered_of_mergeLayers orderedLower success
  obtain ⟨entries, rfl⟩ := exists_entries_of_mergeLayers success
  simp only [merge_eq_ok_iff]
  exact foldlM_merge_eq_ok_iff orderedBelow orderedUpper

/-- Merging is associative as a partial operation, so the merge of layers is the merge of the
merges of any two parts. -/
theorem merge_grouping :
    (∀ a b c : Value, a.Ordered → b.Ordered → c.Ordered →
      (merge a b >>= fun ab => merge ab c).toOption =
        (merge b c >>= fun bc => merge a bc).toOption) ∧
    ∀ lower upper : List Value,
      (∀ layer ∈ lower, layer.Ordered) → (∀ layer ∈ upper, layer.Ordered) →
      ∀ merged, mergeLayers (lower ++ upper) = .ok merged ↔
        ∃ below above, mergeLayers lower = .ok below ∧ mergeLayers upper = .ok above ∧
          merge below above = .ok merged := by
  constructor
  · intro a b c orderedA orderedB orderedC
    ext merged
    simp only [Except.toOption_eq_some_iff, Except.bind_eq_ok_iff, merge_eq_ok_iff]
    exact regroups_of_ordered orderedA orderedB orderedC merged
  · intro lower upper orderedLower orderedUpper merged
    exact mergeLayers_append_eq_ok_iff orderedLower orderedUpper

/-- A conflict that only the outer layers have shows in both groupings, and layers without one
merge in two parts. -/
theorem merge_grouping_plugins :
    let html : Value := .object [("plugins", .array [.string "html"])]
    let copy : Value := .object [("plugins", .array [.string "copy"])]
    let mode : Value := .object [("mode", .null)]
    let flag : Value := .object [("plugins", .bool true)]
    (html.Ordered ∧ copy.Ordered ∧ mode.Ordered ∧ flag.Ordered) ∧
      (merge mode flag >>= fun upper => merge html upper).toOption = none ∧
      ∃ below above, mergeLayers [html] = .ok below ∧ mergeLayers [mode, copy] = .ok above ∧
        merge below above =
          .ok (.object [("mode", .null), ("plugins", .array [.string "html", .string "copy"])]) := by
  intro html copy mode flag
  have ordered : html.Ordered ∧ copy.Ordered ∧ mode.Ordered ∧ flag.Ordered := by decide
  obtain ⟨orderedHtml, orderedCopy, orderedMode, orderedFlag⟩ := ordered
  refine ⟨⟨orderedHtml, orderedCopy, orderedMode, orderedFlag⟩, ?_, ?_⟩
  · rw [← merge_grouping.1 html mode flag orderedHtml orderedMode orderedFlag]
    rfl
  · exact (merge_grouping.2 [html] [mode, copy] (by decide) (by decide) _).mp rfl

end AssetPlan.Config
