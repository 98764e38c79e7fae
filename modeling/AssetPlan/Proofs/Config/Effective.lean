import AssetPlan.Config.Effective
import AssetPlan.Proofs.Except

/-! # What a build computes

A build merges the layers that take part in it, lowest precedence first, and reads the result. The
list `contributions` holds these layers with their sources, so that the merged configuration and
the reported sources are the two sides of one list.
-/

namespace AssetPlan.Effective

open Config

/-- The layers that take part in a build with their sources, lowest precedence first. -/
def contributions (defaults : Defaults) (project : Project) (options : BuildOptions) :
    List (Source × Value) :=
  [({ origin := .builtin }, defaults.layer), (project.source, project.common)]
    ++ (options.environment.bind fun name => (project.select name).map fun layer =>
        (({ origin := .environment, path := some ("environment:" ++ name) } : Source), layer)).toList
    ++ (options.overrides.map fun layer => (({ origin := .cli } : Source), layer)).toList

/-- The layers that take part in a build, lowest precedence first. -/
def layers (defaults : Defaults) (project : Project) (options : BuildOptions) : List Value :=
  (contributions defaults project options).map Prod.snd

theorem layers_eq (defaults : Defaults) (project : Project) (options : BuildOptions) :
    layers defaults project options = [defaults.layer, project.common]
      ++ (options.environment.bind project.select).toList ++ options.overrides.toList := by
  rw [layers, contributions]
  cases options.environment with
  | none => cases options.overrides <;> rfl
  | some name =>
    cases found : project.select name <;> cases options.overrides <;> simp [found]

theorem map_fst_contributions (defaults : Defaults) (project : Project) (options : BuildOptions) :
    (contributions defaults project options).map Prod.fst = [{ origin := .builtin }, project.source]
      ++ environmentSources project options.environment ++ overrideSources options.overrides := by
  rw [contributions]
  cases options.environment with
  | none => cases options.overrides <;> rfl
  | some name =>
    cases found : project.select name <;> cases options.overrides <;>
      simp [found, environmentSources, overrideSources]

theorem foldlM_merge_toList (base : Value) (overlay : Option Value) :
    overlay.toList.foldlM merge base = mergeOptional base overlay := by
  cases overlay with
  | none => rfl
  | some v => exact bind_pure (merge base v)

/-- Without its events, a build is the merge of its layers, read and checked. -/
theorem result_ofLayers (isDir : String → Bool) (defaults : Defaults) (project : Project)
    (options : BuildOptions) :
    (ofLayers isDir defaults project options).result = (do
      let config ← (mergeLayers (layers defaults project options)).mapError .conflict
      let build ← BuildConfig.ofValue config
      let scopeRoot ← (checkScopes isDir project options build).result
      .ok
        { environment := options.environment
          environmentApplied := (options.environment.bind project.select).isSome
          config := config
          sources := (contributions defaults project options).map Prod.fst
          scopeRoot := scopeRoot
          build := build }) := by
  have merging : mergeLayers (layers defaults project options) = (do
      let base ← mergeLayers [defaults.layer, project.common]
      let merged ← mergeOptional base (options.environment.bind project.select)
      mergeOptional merged options.overrides) := by
    simp only [layers_eq, mergeLayers, List.foldlM_append, foldlM_merge_toList, bind_assoc]
  rw [merging, map_fst_contributions]
  simp only [ofLayers, Logged.result_bind, Logged.result_ofExcept, Logged.result_reportAll,
    Logged.result_report, Logged.result_pure, Except.mapError_bind, Except.ok_bind, bind_assoc]

end AssetPlan.Effective

namespace AssetPlan.Config

/-- The computation does not fail with a conflict of layers. -/
def Conflictless {α : Type} (x : Except ConfigError α) : Prop := ∀ c, x ≠ .error (.conflict c)

variable {α β ε : Type}

theorem Conflictless.bind {x : Except ConfigError α} {f : α → Except ConfigError β}
    (first : Conflictless x) (later : ∀ a, Conflictless (f a)) : Conflictless (x >>= f) := by
  intro c failure
  rcases Except.bind_eq_error_iff.mp failure with failure | ⟨a, _, failure⟩
  · exact first c failure
  · exact later a c failure

theorem conflictless_mapError {x : Except ε α} {f : ε → ConfigError}
    (other : ∀ e c, f e ≠ .conflict c) : Conflictless (x.mapError f) := by
  intro c failure
  obtain ⟨e, _, same⟩ := Except.mapError_eq_error_iff.mp failure
  exact other e c same

theorem conflictless_ok (a : α) : Conflictless (.ok a : Except ConfigError α) :=
  fun _ failure => nomatch failure

theorem conflictless_invalid (cause : Invalid) :
    Conflictless (.error (.invalid cause) : Except ConfigError α) :=
  fun _ failure => nomatch failure

theorem conflictless_ofSections (s : Sections) : Conflictless (BuildConfig.ofSections s) := by
  have setting (name value : String) : Conflictless (BuildConfig.checkSetting name value) := by
    rw [BuildConfig.checkSetting]
    split
    · exact conflictless_invalid _
    · exact conflictless_ok _
  refine .bind ?_ fun _ => .bind ?_ fun _ => .bind ?_ fun _ => .bind ?_ fun _ => .bind ?_ fun _ =>
    conflictless_ok _
  · rw [BuildConfig.checkMode.eq_def]
    split
    · exact conflictless_ok _
    · split
      · exact conflictless_ok _
      · exact conflictless_invalid _
  · rw [BuildConfig.readDevtool.eq_def]
    split
    iterate 4 exact conflictless_ok _
    exact conflictless_invalid _
  · exact .bind (setting _ _) fun _ => .bind (setting _ _) fun _ => setting _ _
  · rw [BuildConfig.checkPlugins]
    split
    · exact conflictless_invalid _
    · exact conflictless_ok _
  · exact conflictless_mapError fun _ _ same => nomatch same

/-- Reading a merged configuration reports no conflict. -/
theorem conflictless_ofValue (v : Value) : Conflictless (BuildConfig.ofValue v) :=
  .bind (conflictless_mapError fun _ _ same => nomatch same) fun s => conflictless_ofSections s

theorem conflictless_checkScopes (isDir : String → Bool) (project : Project)
    (options : BuildOptions) (build : BuildConfig) :
    Conflictless (Effective.checkScopes isDir project options build).result := by
  rw [Effective.checkScopes]
  split
  · exact conflictless_ok _
  · simp only [Logged.result_bind, Logged.result_reportAll, Logged.result_ofExcept,
      Logged.result_pure]
    exact .bind (conflictless_ok _) fun _ =>
      .bind (conflictless_mapError fun _ _ same => nomatch same) fun _ => conflictless_ok _

end AssetPlan.Config

namespace AssetPlan.Effective

open Config

theorem result_ofLayers_eq_ok_iff {isDir : String → Bool} {defaults : Defaults} {project : Project}
    {options : BuildOptions} {e : Effective} :
    (ofLayers isDir defaults project options).result = .ok e ↔
      ∃ config build scopeRoot, mergeLayers (layers defaults project options) = .ok config ∧
        BuildConfig.ofValue config = .ok build ∧
        (checkScopes isDir project options build).result = .ok scopeRoot ∧
        { environment := options.environment
          environmentApplied := (options.environment.bind project.select).isSome
          config := config
          sources := (contributions defaults project options).map Prod.fst
          scopeRoot := scopeRoot
          build := build } = e := by
  rw [result_ofLayers]
  simp only [Except.bind_eq_ok_iff, Except.mapError_eq_ok_iff, Except.ok.injEq, exists_and_left]

/-- A build fails with a conflict exactly if its layers conflict. -/
theorem exists_conflict_ofLayers_iff {isDir : String → Bool} {defaults : Defaults}
    {project : Project} {options : BuildOptions} :
    (∃ c, (ofLayers isDir defaults project options).result = .error (.conflict c)) ↔
      ∃ c, mergeLayers (layers defaults project options) = .error c := by
  rw [result_ofLayers]
  constructor
  · rintro ⟨c, failure⟩
    rcases Except.bind_eq_error_iff.mp failure with failure | ⟨config, _, failure⟩
    · obtain ⟨c, failure, _⟩ := Except.mapError_eq_error_iff.mp failure
      exact ⟨c, failure⟩
    · have reading : Conflictless (BuildConfig.ofValue config >>= fun build =>
          (checkScopes isDir project options build).result >>= fun scopeRoot => .ok
            { environment := options.environment
              environmentApplied := (options.environment.bind project.select).isSome
              config := config
              sources := (contributions defaults project options).map Prod.fst
              scopeRoot := scopeRoot
              build := build : Effective }) :=
        (conflictless_ofValue config).bind fun build =>
          (conflictless_checkScopes isDir project options build).bind fun _ => conflictless_ok _
      exact (reading c failure).elim
  · rintro ⟨c, failure⟩
    rw [failure]
    exact ⟨c, rfl⟩

end AssetPlan.Effective
