import AssetPlan.Proofs.Config.Effective
import AssetPlan.Proofs.Config.Grouping
import AssetPlan.Proofs.Config.Project

/-! # One flat sequence of layers

Assignments are folded into a layer of their own before a build merges that layer last. The outcome
is that of one flat sequence: onto the defaults come the common part of the project, the selected
environment and each assignment in turn. A build reports exactly the sources of the layers that it
merged.
-/

namespace AssetPlan.Config

open Value

theorem ordered_nest (keys : List String) {leaf : Value} (ordered : leaf.Ordered) :
    (nest keys leaf).Ordered := by
  induction keys with
  | nil => exact ordered
  | cons key keys ih => exact ordered_object_iff.mpr ⟨List.pairwise_singleton _ _, ih, trivial⟩

theorem ordered_rawValue (raw : String) : (rawValue raw).Ordered := by
  rw [rawValue]
  cases found : Json.read? raw with
  | none => trivial
  | some v => exact Json.ordered_of_read? found

theorem ordered_of_parseAssignment {assignment : String} {layer : Value}
    (success : parseAssignment assignment = .ok layer) : layer.Ordered := by
  rw [parseAssignment] at success
  split at success
  · cases success
  · split at success
    · cases success
    · cases success
      exact ordered_nest _ (ordered_rawValue _)

theorem ordered_of_mapM_parseAssignment {assignments : List String} {values : List Value}
    (parsed : assignments.mapM parseAssignment = .ok values) : ∀ v ∈ values, v.Ordered := by
  intro v member
  obtain ⟨assignment, _, read⟩ := (Except.forall_mem_of_mapM parsed).2 v member
  exact ordered_of_parseAssignment read

/-- Assignments that can be read are merged as their layers are. -/
theorem foldlM_assign {assignments : List String} {values : List Value}
    (parsed : assignments.mapM parseAssignment = .ok values) (layer : Value) :
    assignments.foldlM assign layer = (values.foldlM merge layer).mapError .conflict := by
  induction assignments generalizing values layer with
  | nil =>
    cases parsed
    rfl
  | cons assignment rest ih =>
    obtain ⟨first, later, atFirst, atRest, rfl⟩ := Except.mapM_cons_eq_ok_iff.mp parsed
    rw [List.foldlM_cons, List.foldlM_cons, Except.mapError_bind, assign, atFirst, Except.ok_bind]
    congr 1
    funext next
    exact ih atRest next

theorem parseAssignments_eq {assignments : List String} {values : List Value}
    (parsed : assignments.mapM parseAssignment = .ok values) :
    parseAssignments assignments =
      if assignments.isEmpty then .ok none
      else ((mergeLayers values).mapError .conflict).map some := by
  rw [parseAssignments, foldlM_assign parsed, mergeLayers]

/-- Assignments that can be read fail only by a conflict among them. -/
theorem conflict_of_parseAssignments {assignments : List String} {values : List Value}
    {e : ConfigError} (parsed : assignments.mapM parseAssignment = .ok values)
    (failure : parseAssignments assignments = .error e) : ∃ c, e = .conflict c := by
  rw [parseAssignments_eq parsed] at failure
  split at failure
  · cases failure
  · cases merged : mergeLayers values with
    | ok layer =>
      rw [merged] at failure
      cases failure
    | error c =>
      rw [merged] at failure
      cases failure
      exact ⟨c, rfl⟩

theorem isSome_of_parseAssignments {assignments : List String} {overrides : Option Value}
    (success : parseAssignments assignments = .ok overrides) :
    overrides.isSome ↔ assignments ≠ [] := by
  rw [parseAssignments] at success
  cases assignments with
  | nil =>
    cases success
    simp
  | cons assignment rest =>
    obtain ⟨layer, _, rfl⟩ := Except.map_eq_ok_iff.mp success
    simp

end AssetPlan.Config

namespace AssetPlan

open Config Entries Value

namespace Effective

/-- A build whose overrides are read from assignments. -/
def ofAssignments (isDir : String → Bool) (defaults : Defaults) (project : Project)
    (options : BuildOptions) (assignments : List String) : Except ConfigError Effective := do
  let overrides ← parseAssignments assignments
  (ofLayers isDir defaults project { options with overrides := overrides }).result

/-- The common part, the selected environment and further values, merged onto the defaults one
after the other. -/
def mergeInTurn (defaults : Defaults) (project : Project) (environment : Option String)
    (values : List Value) : Except Conflict Value :=
  (project.common :: (environment.bind project.select).toList ++ values).foldlM merge defaults.layer

variable {isDir : String → Bool} {defaults : Defaults} {project : Project} {options : BuildOptions}
  {assignments : List String} {values : List Value}

theorem mergeInTurn_eq (defaults : Defaults) (project : Project) (environment : Option String)
    (values : List Value) :
    mergeInTurn defaults project environment values =
      mergeLayers (layers defaults project { environment := environment } ++ values) := by
  rw [layers_eq, mergeLayers]
  simp only [Option.toList_none, List.append_nil, List.cons_append, List.nil_append,
    List.foldlM_cons]
  rfl

theorem layers_override (defaults : Defaults) (project : Project) (options : BuildOptions)
    (overrides : Option Value) :
    layers defaults project { options with overrides := overrides } =
      layers defaults project { environment := options.environment } ++ overrides.toList := by
  simp only [layers_eq, Option.toList_none, List.append_nil]

theorem ordered_of_mem_layers (ordered : project.Ordered) (environment : Option String) :
    ∀ layer ∈ layers defaults project { environment := environment }, layer.Ordered := by
  intro layer member
  simp only [layers_eq, Option.toList_none, List.append_nil, List.mem_append, List.mem_cons,
    List.not_mem_nil, or_false, Option.mem_toList] at member
  rcases member with (rfl | rfl) | selected
  · exact defaults.ordered_layer
  · exact ordered.common
  · obtain ⟨name, _, selected⟩ := Option.bind_eq_some_iff.mp selected
    exact ordered.select selected

/-- Folding assignments into a layer first merges as they do in turn. -/
theorem exists_mergeLayers_iff (options : BuildOptions) (ordered : project.Ordered)
    (parsed : assignments.mapM parseAssignment = .ok values) {merged : Value} :
    (∃ overrides, parseAssignments assignments = .ok overrides ∧
        mergeLayers (layers defaults project { options with overrides := overrides }) =
          .ok merged) ↔
      mergeInTurn defaults project options.environment values = .ok merged := by
  rw [mergeInTurn_eq, parseAssignments_eq parsed]
  cases assignments with
  | nil =>
    rw [List.mapM_nil] at parsed
    cases parsed
    simp only [List.isEmpty_nil, if_true, Except.ok.injEq, exists_eq_left', layers_override,
      Option.toList_none]
  | cons assignment rest =>
    rw [mergeLayers_append_eq_ok_iff (ordered_of_mem_layers ordered _)
      (ordered_of_mapM_parseAssignment parsed)]
    simp only [List.isEmpty_cons, Bool.false_eq_true, if_false, Except.map_eq_ok_iff,
      Except.mapError_eq_ok_iff, layers_override, mergeLayers, List.foldlM_append,
      foldlM_merge_toList, Except.bind_eq_ok_iff]
    constructor
    · rintro ⟨_, ⟨above, upper, rfl⟩, below, lower, success⟩
      exact ⟨below, above, lower, upper, success⟩
    · rintro ⟨below, above, lower, upper, success⟩
      exact ⟨some above, ⟨above, upper, rfl⟩, below, lower, success⟩

/-- The build conflicts exactly if the values conflict in turn. -/
theorem exists_conflict_ofAssignments_iff (ordered : project.Ordered)
    (parsed : assignments.mapM parseAssignment = .ok values) :
    (∃ c, ofAssignments isDir defaults project options assignments = .error (.conflict c)) ↔
      ∃ c, mergeInTurn defaults project options.environment values = .error c := by
  rw [Except.exists_error_iff, ofAssignments]
  simp only [← exists_mergeLayers_iff options ordered parsed]
  cases outcome : parseAssignments assignments with
  | error e =>
    obtain ⟨c, rfl⟩ := conflict_of_parseAssignments parsed outcome
    refine iff_of_true ⟨c, rfl⟩ ?_
    rintro ⟨_, _, success, _⟩
    cases success
  | ok overrides =>
    simp only [Except.ok_bind, Except.ok.injEq, exists_eq_left']
    rw [exists_conflict_ofLayers_iff, Except.exists_error_iff]

theorem ofAssignments_eq_ok_iff {e : Effective} :
    ofAssignments isDir defaults project options assignments = .ok e ↔
      ∃ overrides, parseAssignments assignments = .ok overrides ∧
        (ofLayers isDir defaults project { options with overrides := overrides }).result = .ok e :=
  Except.bind_eq_ok_iff

/-- The sources of a build are those of the layers that it merged. -/
theorem merged_of_ofLayers {e : Effective}
    (success : (ofLayers isDir defaults project options).result = .ok e) :
    e.sources = (contributions defaults project options).map Prod.fst ∧
      mergeLayers (layers defaults project options) = .ok e.config := by
  obtain ⟨config, build, scopeRoot, merged, _, _, rfl⟩ := result_ofLayers_eq_ok_iff.mp success
  exact ⟨rfl, merged⟩

theorem environmentApplied_of_ofLayers {e : Effective}
    (success : (ofLayers isDir defaults project options).result = .ok e) :
    e.environmentApplied ↔
      ∃ name, options.environment = some name ∧ name ∈ project.environmentNames := by
  obtain ⟨config, build, scopeRoot, _, _, _, rfl⟩ := result_ofLayers_eq_ok_iff.mp success
  simp only [Option.isSome_iff_exists, Option.bind_eq_some_iff, Project.environmentNames,
    Entries.mem_keys_iff, Project.select]
  exact ⟨fun ⟨layer, name, requested, found⟩ => ⟨name, requested, layer, found⟩,
    fun ⟨name, requested, layer, found⟩ => ⟨layer, name, requested, found⟩⟩

/-- An environment that the project does not have builds as none does. -/
theorem result_ofLayers_unknown (options : BuildOptions) {name : String}
    (unknown : name ∉ project.environmentNames) :
    (ofLayers isDir defaults project { options with environment := some name }).result =
      (ofLayers isDir defaults project { options with environment := none }).result.map
        fun e => { e with environment := some name } := by
  have missing : project.select name = none := find?_eq_none_iff.mpr unknown
  have same : contributions defaults project { options with environment := some name } =
      contributions defaults project { options with environment := none } := by
    simp only [contributions, Option.bind_some, Option.bind_none, missing, Option.map_none]
  simp only [result_ofLayers, layers, same, Option.bind_some, Option.bind_none, missing,
    Except.map_bind]
  rfl

/-- Building with assignments is one flat merge in turn. The sources are those of the layers that
were merged, and an environment that the project does not have builds as none does. -/
theorem ofAssignments_in_turn (isDir : String → Bool) (defaults : Defaults) (project : Project)
    (options : BuildOptions) (assignments : List String) (values : List Value)
    (ordered : project.Ordered) (parsed : assignments.mapM parseAssignment = .ok values) :
    ((∃ c, ofAssignments isDir defaults project options assignments = .error (.conflict c)) ↔
        ∃ c, mergeInTurn defaults project options.environment values = .error c) ∧
      (∀ e, ofAssignments isDir defaults project options assignments = .ok e →
        mergeInTurn defaults project options.environment values = .ok e.config ∧
          (e.environmentApplied ↔
            ∃ name, options.environment = some name ∧ name ∈ project.environmentNames) ∧
          ∃ overrides, parseAssignments assignments = .ok overrides ∧
            (overrides.isSome ↔ assignments ≠ []) ∧
            e.sources = (contributions defaults project
              { options with overrides := overrides }).map Prod.fst ∧
            mergeLayers ((contributions defaults project
              { options with overrides := overrides }).map Prod.snd) = .ok e.config) ∧
      ∀ name, name ∉ project.environmentNames →
        ofAssignments isDir defaults project { options with environment := some name }
            assignments =
          (ofAssignments isDir defaults project { options with environment := none }
            assignments).map fun e => { e with environment := some name } := by
  refine ⟨exists_conflict_ofAssignments_iff ordered parsed, ?_, ?_⟩
  · intro e success
    obtain ⟨overrides, read, built⟩ := ofAssignments_eq_ok_iff.mp success
    obtain ⟨sources, merged⟩ := merged_of_ofLayers built
    have inTurn := (exists_mergeLayers_iff options ordered parsed).mp ⟨overrides, read, merged⟩
    have applied := environmentApplied_of_ofLayers built
    exact ⟨inTurn, applied, overrides, read, isSome_of_parseAssignments read, sources, merged⟩
  · intro name unknown
    rw [ofAssignments, ofAssignments, Except.map_bind]
    congr 1
    funext overrides
    exact result_ofLayers_unknown { options with overrides := overrides } unknown

/-- An assignment takes precedence over the environment. -/
theorem ofAssignments_in_turn_production :
    let project : Project :=
      { common := .object [("plugins", .array [.object [("name", .string "html")]])]
        environments := [("production", .object [("mode", .string "production")])]
        source := { origin := .project } }
    let options : BuildOptions := { environment := some "production", skipScopeCheck := true }
    let assignments := ["mode=development", "output.path=build"]
    let values : List Value := [.object [("mode", .string "development")],
      .object [("output", .object [("path", .string "build")])]]
    project.Ordered ∧ assignments.mapM parseAssignment = .ok values ∧
      ∃ e, ofAssignments (fun _ => false) {} project options assignments = .ok e ∧
        mergeInTurn {} project (some "production") values = .ok e.config ∧
        e.environmentApplied ∧
        e.config.get? "mode" = some (.string "development") := by
  intro project options assignments values
  have ordered : project.Ordered := ⟨by decide, by decide⟩
  have parsed : assignments.mapM parseAssignment = .ok values := rfl
  obtain ⟨e, success⟩ : ∃ e,
      ofAssignments (fun _ => false) {} project options assignments = .ok e := by
    rw [ofAssignments, parseAssignments_eq parsed]
    exact ⟨_, rfl⟩
  have outcome := (ofAssignments_in_turn _ _ _ _ _ _ ordered parsed).2.1 e success
  have applied := outcome.2.1.mpr ⟨"production", rfl, by decide⟩
  obtain ⟨merged, inTurn, mode⟩ : ∃ merged,
      mergeInTurn {} project (some "production") values = .ok merged ∧
        merged.get? "mode" = some (.string "development") := ⟨_, rfl, rfl⟩
  cases outcome.1.symm.trans inTurn
  exact ⟨ordered, parsed, e, success, outcome.1, applied, mode⟩

end Effective

/-- A command builds the project that it selects with the assignments of its line. -/
theorem Selection.result_effective (s : Surroundings) (selection : Selection) :
    (selection.effective s).result = (selection.project s).result >>= fun project =>
      Effective.ofAssignments s.isDir (Defaults.withAssetPath s.assetPath) project
        { environment := selection.environment
          scopeRoot := selection.root
          skipScopeCheck := selection.skipScopeCheck } selection.assignments := by
  simp only [effective, Effective.ofAssignments, Logged.result_bind, Logged.result_ofExcept,
    Logged.result_reportAll, Except.ok_bind]

/-- What a command builds is merged in turn, whatever the project that it selects. -/
theorem Selection.effective_merged {s : Surroundings} {selection : Selection} {project : Project}
    {values : List Value} {e : Effective} (selected : (selection.project s).result = .ok project)
    (parsed : selection.assignments.mapM parseAssignment = .ok values)
    (success : (selection.effective s).result = .ok e) :
    Effective.mergeInTurn (Defaults.withAssetPath s.assetPath) project selection.environment values =
      .ok e.config := by
  rw [result_effective, selected, Except.ok_bind] at success
  obtain ⟨overrides, read, built⟩ := Effective.ofAssignments_eq_ok_iff.mp success
  have merged := (Effective.merged_of_ofLayers built).2
  exact (Effective.exists_mergeLayers_iff _ (ordered_of_project selected) parsed).mp
    ⟨overrides, read, merged⟩

end AssetPlan
