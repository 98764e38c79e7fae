import AssetPlan.Proofs.Config.Build
import AssetPlan.Proofs.Config.Effective
import AssetPlan.Proofs.Config.Merge
import AssetPlan.Proofs.Rule.Table

/-! # Layers above only append

An environment and the overrides of an invocation are merged onto sequences that are already there
by appending to them. A build with them therefore has the rules and plugins of the build without
them at the front, and what these decide stays decided. A sequence cannot be replaced: a value of
another class conflicts, and one that stands where the base has none is no sequence to the reader.
-/

namespace AssetPlan.Config

open Entries Value

/-- A sequence at the key of the first value stands at the front of the one in the second. -/
def Continues (key : String) (below above : Value) : Prop :=
  ∀ items, below.get? key = some (.array items) →
    ∃ more, above.get? key = some (.array (items ++ more))

theorem Continues.refl (key : String) (v : Value) : Continues key v v :=
  fun items found => ⟨[], by rw [List.append_nil, found]⟩

theorem Continues.trans {key : String} {u v w : Value} (lower : Continues key u v)
    (upper : Continues key v w) : Continues key u w := by
  intro items found
  obtain ⟨middle, found⟩ := lower items found
  obtain ⟨last, found⟩ := upper (items ++ middle) found
  exact ⟨middle ++ last, by rw [found, List.append_assoc]⟩

/-- The first entry of an overlay only continues the sequence at its key. -/
private theorem continues_insert {entries : Entries} {key : String} {above value : Value}
    (joins : joined? (find? key entries) (some above) = some (some value)) (query : String) :
    Continues query (.object entries) (.object (Entries.insert key value entries)) := by
  intro items found
  simp only [get?_object] at found ⊢
  rw [find?_insert]
  split
  next same =>
    subst same
    rw [found] at joins
    obtain ⟨merged, merges, same⟩ := joined?_some_eq_some_iff.mp joins
    cases same
    cases merges with
    | scalar below => cases below
    | sequence items more => exact ⟨more, rfl⟩
  next => exact ⟨[], by rw [List.append_nil, found]⟩

theorem continues_of_mergeEntries {entries overlay merged : Entries}
    (success : mergeEntries entries overlay = .ok merged) (key : String) :
    Continues key (.object entries) (.object merged) := by
  induction overlay generalizing entries with
  | nil =>
    cases success
    exact .refl key _
  | cons entry rest ih =>
    obtain ⟨k, above⟩ := entry
    obtain ⟨value, joins, success⟩ := mergeEntries_cons_eq_ok_iff.mp success
    exact (continues_insert joins key).trans (ih success)

theorem Merges.continues {base overlay merged : Value} (merges : Merges base overlay merged)
    (key : String) : Continues key base merged := by
  cases merges with
  | scalar below above =>
    intro items found
    cases base with
    | object entries => cases below
    | _ => cases found
  | sequence items more => exact fun _ found => nomatch found
  | mapping success => exact continues_of_mergeEntries success key

/-- Merging further layers only continues the sequence at a key. -/
theorem continues_of_foldlM_merge {base merged : Value} {layers : List Value}
    (success : layers.foldlM merge base = .ok merged) (key : String) :
    Continues key base merged := by
  induction layers generalizing base with
  | nil =>
    cases success
    exact .refl key _
  | cons layer rest ih =>
    obtain ⟨lower, merges, success⟩ := foldlM_merge_cons_eq_ok_iff.mp success
    exact (merges.continues key).trans (ih success)

end AssetPlan.Config

namespace AssetPlan

open Config Schema

/-- A list that is read from a continued sequence is continued. A value that is no sequence is
refused, and so the list of a mapping without the key is empty. -/
theorem Config.Continues.ofFields {α : Type} {item : Reader α} {name : String}
    {below above : Entries} (continues : Continues name (.object below) (.object above))
    {xs ys : List α}
    (first : (withDefault name [] (list item)).ofFields (fun key => Entries.find? key below) =
      .ok xs)
    (whole : (withDefault name [] (list item)).ofFields (fun key => Entries.find? key above) =
      .ok ys) : xs <+: ys := by
  rcases ofFields_withDefault_eq_ok_iff.mp first with ⟨_, rfl⟩ | ⟨v, found, first⟩
  · exact List.nil_prefix
  · obtain ⟨items, rfl, _⟩ := list_eq_ok_iff.mp first
    obtain ⟨more, continued⟩ := continues items found
    rcases ofFields_withDefault_eq_ok_iff.mp whole with ⟨missing, _⟩ | ⟨w, found, whole⟩
    · rw [Value.get?_object, missing] at continued
      cases continued
    · rw [Value.get?_object, found] at continued
      cases continued
      exact list_append first whole

namespace BuildConfig

/-- The rules and plugins that are read from continued sequences are continued. -/
theorem front_of_continues {below above : Entries} {base full : BuildConfig}
    (rules : Continues "rules" (.object below) (.object above))
    (plugins : Continues "plugins" (.object below) (.object above))
    (first : ofValue (.object below) = .ok base) (whole : ofValue (.object above) = .ok full) :
    base.rules <+: full.rules ∧ base.plugins <+: full.plugins := by
  obtain ⟨s, read, accepted⟩ := ofValue_eq_ok_iff.mp first
  obtain ⟨s', read', accepted'⟩ := ofValue_eq_ok_iff.mp whole
  obtain ⟨_, _, _, _, _, table, compiled, rfl⟩ := ofSections_eq_ok_iff.mp accepted
  obtain ⟨_, _, _, _, _, table', compiled', rfl⟩ := ofSections_eq_ok_iff.mp accepted'
  obtain ⟨_, _, _, atRules, atPlugins, _, _⟩ := Sections.ofFields_of_read read
  obtain ⟨_, _, _, atRules', atPlugins', _, _⟩ := Sections.ofFields_of_read read'
  exact ⟨RuleTable.compile_front (rules.ofFields atRules atRules') compiled compiled',
    plugins.ofFields atPlugins atPlugins'⟩

theorem plugin?_of_front {base full : BuildConfig} (front : base.plugins <+: full.plugins)
    {name : String} {p : Plugin} (found : base.plugin? name = some p) :
    full.plugin? name = some p := by
  obtain ⟨more, same⟩ := front
  rw [plugin?] at found
  rw [plugin?, ← same, List.find?_append, found, Option.some_or]

end BuildConfig

namespace Effective

/-- The layers of a build are those without environment and overrides, and then further ones. -/
theorem exists_layers_eq_append (defaults : Defaults) (project : Project)
    (plain options : BuildOptions) :
    ∃ further, layers defaults project options =
      layers defaults project { plain with environment := none, overrides := none } ++ further := by
  refine ⟨(options.environment.bind project.select).toList ++ options.overrides.toList, ?_⟩
  simp only [layers_eq, Option.bind_none, Option.toList_none, List.append_nil, List.append_assoc]

theorem continues_of_ofLayers {isDir : String → Bool} {defaults : Defaults} {project : Project}
    {plain options : BuildOptions} {base full : Effective}
    (first : (ofLayers isDir defaults project
      { plain with environment := none, overrides := none }).result = .ok base)
    (whole : (ofLayers isDir defaults project options).result = .ok full) :
    base.build.rules <+: full.build.rules ∧ base.build.plugins <+: full.build.plugins := by
  obtain ⟨below, _, _, merged, accepted, _, rfl⟩ := result_ofLayers_eq_ok_iff.mp first
  obtain ⟨above, _, _, merged', accepted', _, rfl⟩ := result_ofLayers_eq_ok_iff.mp whole
  obtain ⟨further, same⟩ := exists_layers_eq_append defaults project plain options
  have onTop : further.foldlM merge below = .ok above := by
    rw [same, mergeLayers, List.foldlM_append, ← mergeLayers, merged, Except.ok_bind] at merged'
    exact merged'
  obtain ⟨entries, rfl⟩ := exists_entries_of_mergeLayers merged
  obtain ⟨entries', rfl⟩ := exists_entries_of_mergeLayers merged'
  exact BuildConfig.front_of_continues (continues_of_foldlM_merge onTop "rules")
    (continues_of_foldlM_merge onTop "plugins") accepted accepted'

/-- An environment and overrides only append rules and plugins, so they change nothing for a path
or a plugin's name that the project itself decides about. -/
theorem ofLayers_appends (isDir : String → Bool) (defaults : Defaults) (project : Project)
    (plain options : BuildOptions) (base full : Effective)
    (first : (ofLayers isDir defaults project
      { plain with environment := none, overrides := none }).result = .ok base)
    (whole : (ofLayers isDir defaults project options).result = .ok full) :
    base.build.rules <+: full.build.rules ∧
      (∀ path i rule, base.build.rules.resolve path = .matched i rule →
        full.build.rules.resolve path = .matched i rule) ∧
      (∀ path, full.build.rules.resolve path = .passThrough →
        base.build.rules.resolve path = .passThrough) ∧
      ∀ name p, base.build.plugin? name = some p → full.build.plugin? name = some p := by
  obtain ⟨rules, plugins⟩ := continues_of_ofLayers first whole
  exact ⟨rules, fun path i rule => RuleTable.resolve_of_front rules,
    fun path => RuleTable.passThrough_of_front rules,
    fun name p => BuildConfig.plugin?_of_front plugins⟩

/-- A rule of the environment that matches everything and a second plugin of one name come too
late. -/
theorem ofLayers_appends_styles :
    let project : Project :=
      { common := .object [("plugins", .array [.object [("name", .string "html")]]),
          ("rules", .array [.object [("contains", .string ".css"), ("name", .string "styles")]])]
        environments := [("production", .object [("rules", .array [
          .object [("contains", .string ""), ("name", .string "everything")]])])]
        source := { origin := .project } }
    let options : BuildOptions :=
      { environment := some "production"
        overrides := some (.object [("plugins", .array [.object [("name", .string "html"),
          ("options", .object [("template", .string "other.html")])]])]) }
    ∃ base full, (ofLayers (fun _ => false) {} project {}).result = .ok base ∧
      (ofLayers (fun _ => false) {} project options).result = .ok full ∧
      (base.build.rules.length = 1 ∧ full.build.rules.length = 2) ∧
      (∃ rule, full.build.rules.resolve "src/app.css" = .matched 0 rule ∧
        rule.name = some "styles") ∧
      ∃ p, full.build.plugin? "html" = some p ∧ p.options = [] := by
  intro project options
  obtain ⟨base, first, one, rule, resolved, named, p, found, bare⟩ : ∃ base,
      (ofLayers (fun _ => false) {} project {}).result = .ok base ∧
        base.build.rules.length = 1 ∧
        ∃ rule, base.build.rules.resolve "src/app.css" = .matched 0 rule ∧
          rule.name = some "styles" ∧
          ∃ p, base.build.plugin? "html" = some p ∧ p.options = [] :=
    ⟨_, rfl, rfl, _, rfl, rfl, _, rfl, rfl⟩
  obtain ⟨full, whole, two⟩ : ∃ full,
      (ofLayers (fun _ => false) {} project options).result = .ok full ∧
        full.build.rules.length = 2 := ⟨_, rfl, rfl⟩
  obtain ⟨_, routes, _, plugins⟩ :=
    ofLayers_appends (fun _ => false) {} project {} options base full first whole
  exact ⟨base, full, first, whole, ⟨one, two⟩, ⟨rule, routes _ _ _ resolved, named⟩,
    p, plugins _ _ found, bare⟩

end Effective

end AssetPlan
