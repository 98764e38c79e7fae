import AssetPlan.Proofs.Config.Effective
import AssetPlan.Proofs.Config.Keys
import AssetPlan.Proofs.Config.Merge
import AssetPlan.Proofs.Config.Project

/-! # An effective configuration stands for itself

What a build has merged can be taken as a project of its own: building that project changes nothing,
whatever the defaults are. The reasons are that the defaults hold scalars in the output settings
only, that an accepted configuration gives every one of these settings, and that it has no
environments left, since that key is not declared.
-/

namespace AssetPlan.Config

open Entries Value

/-- A mapping absorbs what lies below it if it does so at every key that lies below. -/
theorem mergeEntries_absorbed {base overlay : Entries} (ascendingBase : Ascending base)
    (ascending : Ascending overlay)
    (absorbs : ∀ key below, find? key base = some below →
      ∃ above, find? key overlay = some above ∧ Merges below above above) :
    mergeEntries base overlay = .ok overlay := by
  refine (mergeEntries_eq_ok_iff ascendingBase ascending).mpr ⟨ascending, fun key => ?_⟩
  cases below : find? key base with
  | none => exact joined?_none_left _
  | some v =>
    obtain ⟨above, found, merges⟩ := absorbs key v below
    rw [found]
    exact joined?_some_eq_some_iff.mpr ⟨above, merges, rfl⟩

/-- A property of the value at a key, if every merge keeps it, is kept by merging mappings. -/
theorem mergeEntries_keeps {P : Value → Prop}
    (kept : ∀ {below above value}, P below → Merges below above value → P value)
    {entries overlay merged : Entries} {key : String}
    (holds : ∃ v, find? key entries = some v ∧ P v)
    (success : mergeEntries entries overlay = .ok merged) :
    ∃ v, find? key merged = some v ∧ P v := by
  induction overlay generalizing entries with
  | nil =>
    cases success
    exact holds
  | cons entry rest ih =>
    obtain ⟨k, above⟩ := entry
    obtain ⟨value, joins, success⟩ := mergeEntries_cons_eq_ok_iff.mp success
    refine ih ?_ success
    rw [find?_insert]
    split
    next same =>
      subst same
      obtain ⟨v, found, holds⟩ := holds
      rw [found] at joins
      obtain ⟨_, merges, same⟩ := joined?_some_eq_some_iff.mp joins
      cases same
      exact ⟨value, rfl, kept holds merges⟩
    next => exact holds

/-- The value is a mapping with its keys in order. -/
def Sorted (v : Value) : Prop := ∃ entries, v = .object entries ∧ Ascending entries

theorem Sorted.merges {below above value : Value} (sorted : Sorted below)
    (merges : Merges below above value) : Sorted value := by
  obtain ⟨entries, rfl, ascending⟩ := sorted
  cases merges with
  | scalar below => cases below
  | mapping success => exact ⟨_, rfl, mergeEntries_ascending ascending success⟩

/-- A mapping in order, with another at the key. -/
def SortedAt (key : String) (v : Value) : Prop :=
  ∃ entries, v = .object entries ∧ Ascending entries ∧
    ∃ inner, find? key entries = some inner ∧ Sorted inner

theorem SortedAt.merges {key : String} {below above value : Value} (sorted : SortedAt key below)
    (merges : Merges below above value) : SortedAt key value := by
  obtain ⟨entries, rfl, ascending, holds⟩ := sorted
  cases merges with
  | scalar below => cases below
  | mapping success =>
    exact ⟨_, rfl, mergeEntries_ascending ascending success,
      mergeEntries_keeps Sorted.merges holds success⟩

theorem SortedAt.foldlM_merge {key : String} {base merged : Value} {layers : List Value}
    (sorted : SortedAt key base) (success : layers.foldlM merge base = .ok merged) :
    SortedAt key merged := by
  induction layers generalizing base with
  | nil =>
    cases success
    exact sorted
  | cons layer rest ih =>
    obtain ⟨lower, merges, success⟩ := foldlM_merge_cons_eq_ok_iff.mp success
    exact ih (sorted.merges merges) success

end AssetPlan.Config

namespace AssetPlan

open Config Entries Schema Value

theorem Defaults.sortedAt_output (d : Defaults) : SortedAt "output" d.layer := by
  obtain ⟨ascending, values⟩ := ordered_object_iff.mp d.ordered_layer
  have output := values.of_find? (show find? "output" _ = some _ from rfl)
  exact ⟨_, rfl, ascending, _, rfl, _, rfl, (ordered_object_iff.mp output).1⟩

/-- Output settings that were read give all that the defaults give. -/
theorem OutputSettings.found_of_read {entries : Entries} {o : OutputSettings}
    (success : OutputSettings.read (.object entries) = .ok o) :
    find? "path" entries = some (.string o.path) ∧
      find? "filename" entries = some (.string o.filename) ∧
      find? "asset_filename" entries = some (.string o.assetFilename) ∧
      find? "public_path" entries = some (.string o.publicPath) := by
  rw [OutputSettings.read, record] at success
  have fields := ofFields_of_recordWith success
  simp only [Record.ofFields_seq_eq_ok_iff, Record.ofFields_map_eq_ok_iff,
    ofFields_required_eq_ok_iff, text_eq_ok_iff, exists_eq_right] at fields
  obtain ⟨_, ⟨_, ⟨_, ⟨_, ⟨path, atPath, rfl⟩, filename, atFilename, rfl⟩, asset, atAsset, rfl⟩,
    publicPath, atPublic, rfl⟩, _, _, rfl⟩ := fields
  exact ⟨atPath, atFilename, atAsset, atPublic⟩

/-- Whatever gives all output settings absorbs the defaults. -/
theorem Defaults.absorbed (d : Defaults) {entries output : Entries} {o : OutputSettings}
    (ascending : Ascending entries) (found : find? "output" entries = some (.object output))
    (ascendingOutput : Ascending output) (read : OutputSettings.read (.object output) = .ok o) :
    Merges d.layer (.object entries) (.object entries) := by
  obtain ⟨ascendingLayer, values⟩ := ordered_object_iff.mp d.ordered_layer
  have settings := values.of_find? (show find? "output" _ = some _ from rfl)
  have ascendingSettings := (ordered_object_iff.mp settings).1
  obtain ⟨path, filename, asset, publicPath⟩ := OutputSettings.found_of_read read
  have text (a b : String) : Merges (.string a) (.string b) (.string b) := .scalar rfl rfl
  refine .mapping (mergeEntries_absorbed ascendingLayer ascending ?_)
  intro key below atKey
  rcases mem_of_find? atKey with _ | ⟨_, none⟩
  · refine ⟨_, found, .mapping (mergeEntries_absorbed ascendingSettings ascendingOutput ?_)⟩
    intro key below atKey
    rcases mem_of_find? atKey with _ | ⟨_, _ | ⟨_, _ | ⟨_, _ | ⟨_, none⟩⟩⟩⟩
    · exact ⟨_, asset, text _ _⟩
    · exact ⟨_, filename, text _ _⟩
    · exact ⟨_, path, text _ _⟩
    · exact ⟨_, publicPath, text _ _⟩
    · cases none
  · cases none

/-- The defaults are the lowest layer as they are. -/
theorem Defaults.mergeLayers_cons (d : Defaults) (layers : List Value) :
    mergeLayers (d.layer :: layers) = layers.foldlM merge d.layer := by
  have lowest : merge (.object []) d.layer = .ok d.layer :=
    merge_eq_ok_iff.mpr (.mapping (mergeEntries_absorbed ascending_nil
      (ordered_object_iff.mp d.ordered_layer).1 fun _ _ atKey => nomatch atKey))
  rw [mergeLayers, List.foldlM_cons, lowest, Except.ok_bind]

namespace BuildConfig

variable {config : Value} {b : BuildConfig}

/-- An accepted configuration absorbs any defaults. -/
theorem mergeLayers_defaults (accepted : ofValue config = .ok b)
    (sorted : SortedAt "output" config) (d : Defaults) :
    mergeLayers [d.layer, config] = .ok config := by
  obtain ⟨entries, rfl, ascending, _, found, output, rfl, ascendingOutput⟩ := sorted
  obtain ⟨s, success, _⟩ := ofValue_eq_ok_iff.mp accepted
  obtain ⟨_, _, atOutput, _⟩ := Sections.ofFields_of_read success
  obtain ⟨_, found', read⟩ := ofFields_required_eq_ok_iff.mp atOutput
  cases found.symm.trans found'
  rw [d.mergeLayers_cons, foldlM_merge_cons_eq_ok_iff]
  exact ⟨_, d.absorbed ascending found ascendingOutput read, rfl⟩

/-- An accepted configuration has no environments, as their key is not declared. -/
theorem find?_environments {entries : Entries} (accepted : ofValue (.object entries) = .ok b) :
    find? environmentsKey entries = none := by
  rw [Option.eq_none_iff_forall_ne_some]
  intro v found
  obtain ⟨form, declared, _⟩ := form_of_ofValue accepted environmentsKey v found
  simp [Form.sections, Form.sectionsBack, environmentsKey] at declared

/-- An accepted configuration is the common part of a project without environments. -/
theorem project_of_accepted {entries : Entries} (accepted : ofValue (.object entries) = .ok b)
    (source : Source) :
    Project.ofValue (.object entries) source = .ok ⟨.object entries, [], source, none⟩ := by
  have missing := find?_environments accepted
  rw [Project.ofValue, missing, erase_of_find?_eq_none missing]

end BuildConfig

namespace Effective

/-- The check of scopes depends on the project and the options by the root and the choice only. -/
theorem checkScopes_congr {isDir : String → Bool} {project again : Project}
    {options rerun : BuildOptions} (skip : rerun.skipScopeCheck = options.skipScopeCheck)
    (root : rerun.scopeRoot.getD again.scopeRoot = options.scopeRoot.getD project.scopeRoot)
    (build : BuildConfig) :
    checkScopes isDir again rerun build = checkScopes isDir project options build := by
  rw [checkScopes, checkScopes, skip, root]

/-- What a build has merged is a project without environments. Building it on any other defaults,
with the scopes checked as before, gives the same configuration, rules and plugins. -/
theorem ofLayers_fixed_point (isDir : String → Bool) (defaults other : Defaults)
    (project : Project) (options : BuildOptions) (source : Source) (e : Effective)
    (built : (ofLayers isDir defaults project options).result = .ok e) :
    ∃ again, Project.ofValue e.config source = .ok again ∧ again.environments = [] ∧
      (ofLayers isDir other again
        { scopeRoot := some (options.scopeRoot.getD project.scopeRoot)
          skipScopeCheck := options.skipScopeCheck }).result =
        .ok { e with
          environment := none
          environmentApplied := false
          sources := [{ origin := .builtin }, source] } := by
  obtain ⟨config, build, scopeRoot, merged, accepted, checked, rfl⟩ :=
    result_ofLayers_eq_ok_iff.mp built
  have sorted : SortedAt "output" config := by
    rw [layers_eq, List.append_assoc, List.cons_append, defaults.mergeLayers_cons] at merged
    exact defaults.sortedAt_output.foldlM_merge merged
  obtain ⟨entries, rfl, _⟩ := id sorted
  refine ⟨_, BuildConfig.project_of_accepted accepted source, rfl, ?_⟩
  refine result_ofLayers_eq_ok_iff.mpr ⟨_, build, scopeRoot,
    BuildConfig.mergeLayers_defaults accepted sorted other, accepted, ?_, rfl⟩
  rw [← checked]
  exact congrArg Logged.result (checkScopes_congr rfl rfl build)

/-- A production build is rebuilt on defaults with another public path. -/
theorem ofLayers_fixed_point_production :
    let project : Project :=
      { common := .object [("plugins", .array [.object [("name", .string "html")]]),
          ("rules", .array [.object [("contains", .string ".css"),
            ("scope", .array [.string "src"])]])]
        environments := [("production", .object [
          ("output", .object [("chunk_filename", .null), ("public_path", .string "/app/")]),
          ("plugins", .array [.object [("name", .string "css")]])])]
        source := { origin := .project }
        root := some "web" }
    let isDir : String → Bool := fun _ => true
    ∃ e again rebuilt,
      (ofLayers isDir {} project { environment := some "production" }).result = .ok e ∧
      Project.ofValue e.config project.source = .ok again ∧
      (ofLayers isDir { publicPath := "/cdn/" } again { scopeRoot := some "web" }).result =
        .ok rebuilt ∧
      (rebuilt.build.plugins.map Plugin.name = ["html", "css"] ∧
        rebuilt.build.output.publicPath = "/app/") := by
  intro project isDir
  obtain ⟨e, built, names, path⟩ : ∃ e,
      (ofLayers isDir {} project { environment := some "production" }).result = .ok e ∧
        e.build.plugins.map Plugin.name = ["html", "css"] ∧
        e.build.output.publicPath = "/app/" := by
    refine ⟨_, rfl, ?_⟩
    exact ⟨rfl, rfl⟩
  obtain ⟨again, taken, _, rebuilt⟩ := ofLayers_fixed_point isDir {} { publicPath := "/cdn/" }
    project { environment := some "production" } project.source e built
  exact ⟨e, again, _, built, taken, rebuilt, names, path⟩

end Effective

end AssetPlan
