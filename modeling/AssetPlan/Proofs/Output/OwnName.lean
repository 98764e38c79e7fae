import AssetPlan.Proofs.Output.Query
import AssetPlan.Proofs.Output.Refusal

/-! # Files under their own names

The template of name, extension and query takes the last segment of an asset path apart and puts it
together again. Unless that segment stands for a directory nothing is lost: the file is the segment
with the query behind it, and is written without the query.
-/

namespace AssetPlan

/-- The last segment of the file part of an asset path. -/
def assetBase (path : String) : List Char :=
  (Text.split '/' (assetFile path)).getLast (Text.split_ne_nil _ _)

/-- The template that puts an asset's own name together. -/
def ownName : String := "[name][ext][query]"

variable {rule : Rule} {policy : OutputPolicy} {index : Nat} {content : Content.Bytes}
  {output : OutputSettings} {path : String}

theorem render_ownName (names : AssetNames) :
    (Template.parse ownName.toList).render names =
      .ok (names.name ++ names.ext ++ names.query) := by
  have parsed : Template.parse ownName.toList =
      ⟨[([], "name".toList), ([], "ext".toList), ([], "query".toList)], []⟩ := by
    simp [ownName, Template.parse, Text.splitOnce]
  rw [parsed]
  simp [Template.render, Template.renderPieces, Placeholder.ofToken?, Placeholder.substitute,
    Text.splitOnce, Except.map]

theorem split_assetFile (path : String) :
    Text.split '/' (assetFile path) =
      (Text.split '/' (assetFile path)).dropLast ++ [assetBase path] :=
  (List.dropLast_concat_getLast _).symm

/-- What follows the name of a file is its query and nothing else. -/
theorem splitQuery_assetBase_append (path : String) :
    splitQuery (assetBase path ++ assetQuery path) = (assetBase path, assetQuery path) := by
  have free : '?' ∉ assetBase path := by
    intro inside
    have segment : assetBase path ∈ Text.split '/' (assetFile path) := List.getLast_mem _
    exact AssetNames.ne_of_mem_splitQuery (Text.mem_of_mem_split segment inside) rfl
  have query : splitQuery (assetQuery path) = ([], assetQuery path) := by
    rcases AssetNames.splitQuery_snd (Path.normalize path).toList with none | ⟨rest, started⟩
    · rw [assetQuery, none]
      rfl
    · rw [assetQuery, started]
      rfl
  rw [AssetNames.splitQuery_append free, query, List.append_nil]

theorem assetNames_eq (path : String) (content : Content.Bytes) :
    assetNames path content =
      { name := Path.stem (assetFile path)
        ext := Path.dottedExtension (assetFile path)
        query := assetQuery path
        hash := (Content.hash content).toList } := by
  rw [assetNames, AssetNames.of_eq, assetFile, assetQuery, Path.normalize, String.toList_ofList]

/-- The name and the extension of an asset are its last segment, unless that stands for a
directory. -/
theorem assetNames_append (named : Path.IsName (assetBase path)) (content : Content.Bytes) :
    (assetNames path content).name ≠ [] ∧
      ((assetNames path content).ext = [] ∨
        ∃ e, (assetNames path content).ext = '.' :: e ∧ '.' ∉ e) ∧
      (assetNames path content).name ++ (assetNames path content).ext = assetBase path := by
  obtain ⟨nonempty, notHere, notUp⟩ := named
  have found : Path.fileName? (assetFile path) = some (assetBase path) :=
    Path.fileName?_of_split (split_assetFile path) nonempty notHere notUp
  simpa only [assetNames_eq] using Path.stem_append_dottedExtension found

/-- Under the template of its own name, an asset whose last segment is a name is emitted as that
segment with the query behind it, and is written to that segment below the output directory. The
name that the template shows is not empty, and the extension has no dot but the one at its start. -/
theorem place_ownName (known : rule.output = some policy)
    (emits : policy.emitting? output content.length = some ownName)
    (named : Path.IsName (assetBase path)) :
    ((assetNames path content).name ≠ [] ∧
      ((assetNames path content).ext = [] ∨
        ∃ e, (assetNames path content).ext = '.' :: e ∧ '.' ∉ e) ∧
      (assetNames path content).name ++ (assetNames path content).ext = assetBase path) ∧
    ∃ inlineFallback, place rule index path content output =
      .ok (.emitted (Path.normalize path) (.ofList (assetBase path ++ assetQuery path))
        (Path.join output.path (.ofList (assetBase path)))
        (Path.publicUrl output.publicPath (.ofList (assetBase path ++ assetQuery path)))
        content.length inlineFallback) := by
  have whole := assetNames_append named content
  refine ⟨whole, ?_⟩
  have source : AssetNames.of (Path.normalize path).toList (Content.hash content).toList =
      assetNames path content := by
    rw [assetNames, Path.normalize, String.toList_ofList]
  have query : (assetNames path content).query = assetQuery path := by rw [assetNames_eq]
  have rendered : (Template.parse ownName.toList).render
      (.of (Path.normalize path).toList (Content.hash content).toList) =
        .ok (assetBase path ++ assetQuery path) := by
    rw [source, render_ownName, whole.2.2, query]
  obtain ⟨inlineFallback, placed⟩ := exists_placeUnder_eq_emit emits
  refine ⟨inlineFallback, (placeWith_eq known).trans (placed.trans (emit_eq_ok_iff.mpr ?_))⟩
  refine ⟨_, rendered, ?_⟩
  rw [splitQuery_assetBase_append, Path.join, Path.publicUrl, String.toList_ofList,
    String.toList_ofList]

/-- A file with two extensions and a query. -/
theorem place_ownName_archive :
    let rule : Rule := { matcher := .contains "", output := some (.hashedFile none) }
    let output : OutputSettings := ⟨"dist", "[name].js", ownName, "/", none⟩
    (rule.output = some (.hashedFile none) ∧
      (OutputPolicy.hashedFile none).emitting? output 0 = some ownName ∧
      Path.IsName (assetBase "./src//archive.tar.gz?v=1")) ∧
    ∃ inlineFallback, place rule 0 "./src//archive.tar.gz?v=1" [] output =
      .ok (.emitted "src/archive.tar.gz?v=1" "archive.tar.gz?v=1" "dist/archive.tar.gz"
        "/archive.tar.gz?v=1" 0 inlineFallback) := by
  have source : Path.normalize "./src//archive.tar.gz?v=1" = "src/archive.tar.gz?v=1" := by decide
  have file : String.ofList (assetBase "./src//archive.tar.gz?v=1" ++
      assetQuery "./src//archive.tar.gz?v=1") = "archive.tar.gz?v=1" := by decide
  have target : Path.join "dist" (.ofList (assetBase "./src//archive.tar.gz?v=1")) =
      "dist/archive.tar.gz" := by decide
  have url : Path.publicUrl "/" "archive.tar.gz?v=1" = "/archive.tar.gz?v=1" := by decide
  have named : Path.IsName (assetBase "./src//archive.tar.gz?v=1") := by decide
  intro rule output
  obtain ⟨_, inlineFallback, placed⟩ := @place_ownName rule _ 0 [] output _ rfl rfl named
  rw [source, file, target, url] at placed
  exact ⟨⟨rfl, rfl, named⟩, inlineFallback, placed⟩

end AssetPlan
