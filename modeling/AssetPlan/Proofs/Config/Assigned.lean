import AssetPlan.Proofs.Config.Layers
import AssetPlan.Proofs.Config.Sequential
import AssetPlan.Proofs.Text.Split

/-! # What one more assignment changes

An assignment is merged last, as a layer that has its value at its path and nothing beside it. So a
build with one more assignment has the assigned scalar at that path, and at every path that does not
run along it what the build without the assignment has.
-/

namespace AssetPlan.Config

open Text Value

theorem get?_nest_cons (key asked : String) (keys : List String) (leaf : Value) :
    (nest (key :: keys) leaf).get? asked = if key = asked then some (nest keys leaf) else none :=
  rfl

theorem reach_nest_append (keys query : List String) (leaf : Value) :
    (nest keys leaf).reach (keys ++ query) = leaf.reach query := by
  induction keys with
  | nil => rfl
  | cons key keys ih =>
    rw [List.cons_append, reach_cons, get?_nest_cons, if_pos rfl, Option.bind_some, ih]

theorem reach_nest (keys : List String) (leaf : Value) :
    (nest keys leaf).reach keys = some leaf := by
  have atEnd := reach_nest_append keys [] leaf
  rwa [List.append_nil] at atEnd

/-- A path that leaves the keys of a layer leads to nothing in it. -/
theorem reach_nest_of_apart {keys query : List String} (shorter : ¬ query <+: keys)
    (longer : ¬ keys <+: query) (leaf : Value) : (nest keys leaf).reach query = none := by
  induction keys generalizing query with
  | nil => exact (longer List.nil_prefix).elim
  | cons key keys ih =>
    cases query with
    | nil => exact (shorter List.nil_prefix).elim
    | cons asked query =>
      rw [reach_cons, get?_nest_cons]
      split
      next same =>
        subst same
        rw [List.prefix_cons_inj] at shorter longer
        exact ih shorter longer
      next => rfl

/-- Merging a scalar at a path puts it there. -/
theorem Merges.reach_nest {base merged leaf : Value} {keys : List String}
    (merges : Merges base (nest keys leaf) merged) (scalar : leaf.isScalar) :
    merged.reach keys = some leaf := by
  have ordered := ordered_nest keys (ordered_of_isScalar scalar)
  have atKeys := merges.joined?_reach ordered keys
  rw [Config.reach_nest] at atKeys
  cases below : base.reach keys with
  | none => simpa [below] using atKeys.symm
  | some v =>
    rw [below] at atKeys
    obtain ⟨inner, replaced, same⟩ := joined?_some_eq_some_iff.mp atKeys
    obtain ⟨_, rfl⟩ := (merges_iff_of_isScalar scalar).mp replaced
    exact same

/-- Merging a value at a path leaves what stands at the paths apart from it. -/
theorem Merges.reach_of_apart {base merged leaf : Value} {keys query : List String}
    (merges : Merges base (nest keys leaf) merged) (ordered : leaf.Ordered)
    (shorter : ¬ query <+: keys) (longer : ¬ keys <+: query) :
    merged.reach query = base.reach query := by
  have atQuery := merges.joined?_reach (ordered_nest keys ordered) query
  rw [reach_nest_of_apart shorter longer, joined?_none_right, Option.some.injEq] at atQuery
  exact atQuery.symm

/-- The keys of a dotted key as it is looked up. -/
def dottedPath (key : String) : List String := (split '.' key.toList).map .ofList

/-- The key of an assignment without the blanks around it. -/
def trimmedKey (key : String) : String := .ofList (trim key.toList)

theorem dottedKeys?_eq (key : String) :
    dottedKeys? key.toList =
      if "" ∈ dottedPath (trimmedKey key) then none else some (dottedPath (trimmedKey key)) := by
  have someEmpty : (split '.' (trim key.toList)).any List.isEmpty ↔
      "" ∈ dottedPath (trimmedKey key) := by
    simp [dottedPath, trimmedKey, String.ofList_eq_empty_iff]
  simp only [dottedKeys?, someEmpty, dottedPath, trimmedKey, String.toList_ofList]

/-- An assignment whose key has no `=` assigns to the path of the key, unless a segment of the key
is empty. -/
theorem parseAssignment_append {key : String} (plain : '=' ∉ key.toList) (raw : String) :
    parseAssignment (key ++ "=" ++ raw) =
      if "" ∈ dottedPath (trimmedKey key) then .error (.invalid (.assignmentKey key))
      else .ok (nest (dottedPath (trimmedKey key)) (rawValue raw)) := by
  have written : (key ++ "=" ++ raw).toList = key.toList ++ '=' :: raw.toList := by simp
  rw [parseAssignment, written, splitOnce_of_not_mem plain]
  dsimp only
  rw [dottedKeys?_eq, String.ofList_toList, String.ofList_toList]
  by_cases empty : "" ∈ dottedPath (trimmedKey key)
  · rw [if_pos empty, if_pos empty]
  · rw [if_neg empty, if_neg empty]

theorem parseAssignment_of_key {key raw : String} {layer : Value} (plain : '=' ∉ key.toList)
    (success : parseAssignment (key ++ "=" ++ raw) = .ok layer) :
    layer = nest (dottedPath (trimmedKey key)) (rawValue raw) := by
  rw [parseAssignment_append plain] at success
  split at success
  · cases success
  · exact (Except.ok.inj success).symm

/-- Assignments that give a layer can all be read. -/
theorem exists_mapM_of_foldlM_assign {assignments : List String} {base layer : Value}
    (success : assignments.foldlM assign base = .ok layer) :
    ∃ values, assignments.mapM parseAssignment = .ok values := by
  induction assignments generalizing base with
  | nil => exact ⟨[], rfl⟩
  | cons assignment rest ih =>
    rw [List.foldlM_cons] at success
    obtain ⟨next, assigned, success⟩ := Except.bind_eq_ok_iff.mp success
    obtain ⟨value, parsed, _⟩ := Except.bind_eq_ok_iff.mp assigned
    obtain ⟨values, later⟩ := ih success
    exact ⟨_, Except.mapM_cons_eq_ok_iff.mpr ⟨value, values, parsed, later, rfl⟩⟩

theorem exists_mapM_of_parseAssignments {assignments : List String} {overrides : Option Value}
    (success : parseAssignments assignments = .ok overrides) :
    ∃ values, assignments.mapM parseAssignment = .ok values := by
  cases assignments with
  | nil => exact ⟨[], rfl⟩
  | cons assignment rest =>
    rw [parseAssignments, if_neg (by simp)] at success
    obtain ⟨layer, folded, _⟩ := Except.map_eq_ok_iff.mp success
    exact exists_mapM_of_foldlM_assign folded

end AssetPlan.Config

namespace AssetPlan.Effective

open Config Value

variable {isDir : String → Bool} {defaults : Defaults} {project : Project} {options : BuildOptions}
  {assignments : List String} {assignment : String} {e e' : Effective}

/-- A build with assignments has merged their values in turn. -/
theorem mergeInTurn_of_ofAssignments (ordered : project.Ordered)
    (success : ofAssignments isDir defaults project options assignments = .ok e) :
    ∃ values, assignments.mapM parseAssignment = .ok values ∧
      mergeInTurn defaults project options.environment values = .ok e.config := by
  obtain ⟨overrides, read, built⟩ := ofAssignments_eq_ok_iff.mp success
  obtain ⟨values, parsed⟩ := exists_mapM_of_parseAssignments read
  have merged := (merged_of_ofLayers built).2
  exact ⟨values, parsed, (exists_mergeLayers_iff options ordered parsed).mp ⟨_, read, merged⟩⟩

/-- One more assignment is merged onto what the build without it has merged. -/
theorem merges_of_assignment (ordered : project.Ordered)
    (before : ofAssignments isDir defaults project options assignments = .ok e)
    (after : ofAssignments isDir defaults project options (assignments ++ [assignment]) = .ok e') :
    ∃ layer, parseAssignment assignment = .ok layer ∧ Merges e.config layer e'.config := by
  obtain ⟨values, parsed, merged⟩ := mergeInTurn_of_ofAssignments ordered before
  obtain ⟨values', parsed', merged'⟩ := mergeInTurn_of_ofAssignments ordered after
  rw [List.mapM_append, parsed, Except.ok_bind] at parsed'
  obtain ⟨more, last, same⟩ := Except.bind_eq_ok_iff.mp parsed'
  obtain ⟨layer, none, atLast, atEnd, rfl⟩ := Except.mapM_cons_eq_ok_iff.mp last
  cases atEnd
  cases same
  refine ⟨layer, atLast, ?_⟩
  rw [mergeInTurn, List.foldlM_append] at merged merged'
  obtain ⟨lower, below, merged⟩ := Except.bind_eq_ok_iff.mp merged
  rw [below, Except.ok_bind, List.foldlM_append, merged, Except.ok_bind] at merged'
  obtain ⟨_, merges, same⟩ := foldlM_merge_cons_eq_ok_iff.mp merged'
  cases same
  exact merges

/-- One more assignment of a scalar takes effect at its path, and at no path apart from it. -/
theorem get?_of_assignment (isDir : String → Bool) (defaults : Defaults) (project : Project)
    (options : BuildOptions) (assignments : List String) (key raw : String) (e e' : Effective)
    (ordered : project.Ordered) (plain : '=' ∉ key.toList) (scalar : (rawValue raw).isScalar)
    (before : ofAssignments isDir defaults project options assignments = .ok e)
    (after : ofAssignments isDir defaults project options
      (assignments ++ [key ++ "=" ++ raw]) = .ok e') :
    e'.get? (trimmedKey key) = some (rawValue raw) ∧
      ∀ query, ¬ dottedPath query <+: dottedPath (trimmedKey key) →
        ¬ dottedPath (trimmedKey key) <+: dottedPath query → e'.get? query = e.get? query := by
  obtain ⟨layer, parsed, merges⟩ := merges_of_assignment ordered before after
  rw [parseAssignment_of_key plain parsed] at merges
  exact ⟨merges.reach_nest scalar, fun query shorter longer =>
    merges.reach_of_apart (ordered_of_isScalar scalar) shorter longer⟩

/-- An assigned public path takes precedence over the environment's, and source maps are turned off
by the JSON value; the output directory that was assigned before stays. -/
theorem get?_of_assignment_publicPath :
    let project : Project :=
      { common := .object [("plugins", .array [.object [("name", .string "html")]])]
        environments := [("production", .object [
          ("output", .object [("public_path", .string "/app/")])])]
        source := { origin := .project } }
    let options : BuildOptions := { environment := some "production", skipScopeCheck := true }
    let build := ofAssignments (fun _ => false) {} project options
    project.Ordered ∧ '=' ∉ " output.public_path ".toList ∧ (rawValue "/a=b/").isScalar ∧
      '=' ∉ "devtool".toList ∧ (rawValue "false").isScalar ∧
      ∃ e e' e'', build ["output.path=build"] = .ok e ∧
        build ["output.path=build", " output.public_path =/a=b/"] = .ok e' ∧
        build ["output.path=build", "devtool=false"] = .ok e'' ∧
        (e.get? "output.public_path" = some (.string "/app/") ∧
          e'.get? "output.public_path" = some (.string "/a=b/")) ∧
        e'.get? "output.path" = e.get? "output.path" ∧
        e''.get? "devtool" = some (.bool false) ∧
        e''.get? "output.path" = e.get? "output.path" := by
  intro project options build
  have ordered : project.Ordered := ⟨by decide, by decide⟩
  have plain : '=' ∉ " output.public_path ".toList := by decide
  have plain' : '=' ∉ "devtool".toList := by decide
  have scalar : (rawValue "/a=b/").isScalar := rfl
  have scalar' : (rawValue "false").isScalar := rfl
  have parsed : ["output.path=build"].mapM parseAssignment =
      .ok [.object [("output", .object [("path", .string "build")])]] := rfl
  have parsed' : ["output.path=build", " output.public_path =/a=b/"].mapM parseAssignment =
      .ok [.object [("output", .object [("path", .string "build")])],
        .object [("output", .object [("public_path", .string "/a=b/")])]] := rfl
  have parsed'' : ["output.path=build", "devtool=false"].mapM parseAssignment =
      .ok [.object [("output", .object [("path", .string "build")])],
        .object [("devtool", .bool false)]] := rfl
  obtain ⟨e, before, path⟩ : ∃ e, build ["output.path=build"] = .ok e ∧
      e.config.reach ["output", "public_path"] = some (.string "/app/") := by
    simp only [build, ofAssignments, parseAssignments_eq parsed]
    exact ⟨_, rfl, rfl⟩
  obtain ⟨e', after⟩ : ∃ e',
      build ["output.path=build", " output.public_path =/a=b/"] = .ok e' := by
    simp only [build, ofAssignments, parseAssignments_eq parsed']
    exact ⟨_, rfl⟩
  obtain ⟨e'', silenced⟩ : ∃ e'', build ["output.path=build", "devtool=false"] = .ok e'' := by
    simp only [build, ofAssignments, parseAssignments_eq parsed'']
    exact ⟨_, rfl⟩
  obtain ⟨assigned, apart⟩ :=
    get?_of_assignment _ _ _ _ _ _ _ _ _ ordered plain scalar before after
  obtain ⟨assigned', apart'⟩ :=
    get?_of_assignment _ _ _ _ _ _ _ _ _ ordered plain' scalar' before silenced
  exact ⟨ordered, plain, scalar, plain', scalar', e, e', e'', before, after, silenced,
    ⟨path, assigned⟩, apart "output.path" (by decide) (by decide), assigned',
    apart' "output.path" (by decide) (by decide)⟩

end AssetPlan.Effective
