import AssetPlan.Command.Report
import AssetPlan.Proofs.Except
import AssetPlan.Proofs.Value.Ordered

/-! # Projects have their keys in order

Everything that a command can take as a project keeps the keys of its mappings in order: the
documents that are read, the presets, and the empty project.
-/

namespace AssetPlan

open Config Entries Value

mutual
/-- A document's value has its keys in order. -/
theorem Toml.ordered_toValue : (t : Toml) → t.toValue.Ordered
  | .array items => Toml.ordered_toValues items
  | .table entries => Toml.ordered_toEntries entries
  | .float x => by
    rw [Toml.toValue]
    split <;> trivial
  | .string _ | .integer _ | .boolean _ | .moment _ => trivial
theorem Toml.ordered_toValues : (items : List Toml) → ItemsOrdered (Toml.toValues items)
  | [] => trivial
  | t :: rest => ⟨Toml.ordered_toValue t, Toml.ordered_toValues rest⟩
theorem Toml.ordered_toEntries :
    (entries : List (String × Toml)) → (Value.object (Toml.toEntries entries)).Ordered
  | [] => ordered_object_iff.mpr ⟨ascending_nil, trivial⟩
  | (key, t) :: rest => by
    obtain ⟨ascending, values⟩ := ordered_object_iff.mp (Toml.ordered_toEntries rest)
    exact ordered_object_iff.mpr
      ⟨ascending.insert key _, values.insert key (Toml.ordered_toValue t)⟩
end

theorem Defaults.ordered_layer (d : Defaults) : d.layer.Ordered := by
  have keys : List.Pairwise (· < ·) ["asset_filename", "filename", "path", "public_path"] := by
    decide
  have output : Value.Ordered (.object [
      ("asset_filename", .string d.assetFilename), ("filename", .string d.outputFilename),
      ("path", .string d.outputPath), ("public_path", .string d.publicPath)]) :=
    ordered_object_iff.mpr ⟨keys, trivial, trivial, trivial, trivial, trivial⟩
  exact ordered_object_iff.mpr ⟨List.pairwise_singleton _ _, output, trivial⟩

/-- Every layer of a project has its keys in order. -/
structure Project.Ordered (p : Project) : Prop where
  common : p.common.Ordered
  environments : (Value.object p.environments).Ordered

namespace Project

variable {p : Project} {source : Source}

theorem Ordered.select (ordered : p.Ordered) {name : String} {layer : Value}
    (selected : p.select name = some layer) : layer.Ordered :=
  (ordered_object_iff.mp ordered.environments).2.of_find? selected

theorem ordered_empty : empty.Ordered := ⟨by decide, by decide⟩

/-- Taking a document apart keeps its order. -/
theorem ordered_of_ofValue {document : Value} (ordered : document.Ordered)
    (success : ofValue document source = .ok p) : p.Ordered := by
  cases document with
  | object entries =>
    obtain ⟨ascending, values⟩ := ordered_object_iff.mp ordered
    have common : (Value.object (Entries.erase environmentsKey entries)).Ordered := by
      refine ordered_object_iff.mpr ⟨ascending.erase environmentsKey, entriesOrdered_iff.mpr ?_⟩
      intro entry member
      exact entriesOrdered_iff.mp values entry ((erase_sublist _ _).mem member)
    simp only [ofValue] at success
    split at success
    · cases success
      exact ⟨common, ordered_object_iff.mpr ⟨ascending_nil, trivial⟩⟩
    next environments found =>
      split at success
      · cases success
      · cases success
        exact ⟨common, values.of_find? found⟩
    · cases success
  | _ => cases success

theorem ordered_of_ofToml {text : String} (success : ofToml text source = .ok p) : p.Ordered := by
  rw [ofToml] at success
  split at success
  · cases success
  · exact ordered_of_ofValue (Toml.ordered_toValue _) success

theorem ordered_of_ofFile {path : String} {content : Except FileError Content.Bytes}
    (success : (ofFile path content).result = .ok p) : p.Ordered := by
  simp only [ofFile, Logged.result_bind, Logged.result_ofExcept, Logged.result_report,
    Logged.result_pure, Except.ok_bind, Except.bind_eq_ok_iff, Except.ok.injEq] at success
  obtain ⟨_, _, _, _, document, read, rfl⟩ := success
  have ordered := ordered_of_ofToml read
  exact ⟨ordered.common, ordered.environments⟩

end Project

theorem Preset.ordered_webappCommon : webappCommon.Ordered := by decide

theorem Preset.ordered_webappProduction : webappProduction.Ordered := by decide

theorem Preset.ordered_of_find {name : String} {p : Project}
    (success : Preset.find name = .ok p) : p.Ordered := by
  rw [Preset.find] at success
  split at success
  · cases success
    exact ⟨ordered_webappCommon, ordered_object_iff.mpr
      ⟨List.pairwise_singleton _ _, ordered_webappProduction, trivial⟩⟩
  · cases success

/-- Every project that a command selects has its keys in order. -/
theorem Selection.ordered_of_project {s : Surroundings} {selection : Selection} {p : Project}
    (success : (selection.project s).result = .ok p) : p.Ordered := by
  rw [Selection.project] at success
  split at success
  · exact Preset.ordered_of_find success
  · exact Project.ordered_of_ofFile success
  · split at success
    · exact Project.ordered_of_ofFile success
    · cases success
      exact Project.ordered_empty

end AssetPlan
