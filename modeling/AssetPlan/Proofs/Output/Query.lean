import AssetPlan.Proofs.Output.Placement
import AssetPlan.Proofs.Output.Template
import AssetPlan.Proofs.Path.Query

/-! # Queries of emitted assets

An asset path may have a query behind it, which is brought to normal form with the path and split
off afterwards. So what a query does to an emitted file depends on its slashes: it is carried along
unchanged, and is all that it changes, exactly if normalization passes it over and the path has
nothing to drop at its end.
-/

namespace AssetPlan

variable {path source : String} {content : Content.Bytes} {names : AssetNames} {p q : String}

/-- Places an asset in a file of its own under names that are given. -/
def emitNamed (names : AssetNames) (source : String) (size : Nat) (template : String)
    (output : OutputSettings) (inlineFallback : Bool) : Except PlaceError Placement :=
  match (Template.parse template.toList).render names with
  | .error token => .error (.unknownPlaceholder template (.ofList token))
  | .ok file =>
    .ok (.emitted source (.ofList file)
      (.ofList (Path.joinChars output.path.toList (splitQuery file).1))
      (.ofList (Path.publicChars output.publicPath.toList file))
      size inlineFallback)

/-- Every rule that emits files, with whatever template, puts these names in the place of its
placeholders, and has this source. -/
def EmitsAs (path : String) (content : Content.Bytes) (names : AssetNames) (source : String) :
    Prop :=
  ∀ (rule : Rule) (index : Nat) (output : OutputSettings) (filename : Option String),
    rule.output = some (.hashedFile filename) →
      place rule index path content output =
        emitNamed names source content.length (filename.getD output.assetFilename) output false

theorem emitsAs_assetNames (path : String) (content : Content.Bytes) :
    EmitsAs path content (assetNames path content) (Path.normalize path) := by
  intro rule index output filename hashed
  have emitted : place rule index path content output = emit Content.hash (Path.normalize path)
      content (filename.getD output.assetFilename) output false := placeWith_eq hashed
  have source : (Path.normalize path).toList = Path.normalChars path.toList := String.toList_ofList
  rw [emitted, assetNames, ← source]
  rfl

/-- The source of an emitted file is the normal form of its path. -/
theorem EmitsAs.source_eq (emits : EmitsAs path content names source) :
    source = Path.normalize path := by
  -- the empty template names a file for all assets
  let rule : Rule := { matcher := .contains "", output := some (.hashedFile (some "")) }
  let output : OutputSettings := ⟨"", "", "", "", none⟩
  have parsed : Template.parse "".toList = ⟨[], []⟩ := by simp [Template.parse, Text.splitOnce]
  have same := (emits rule 0 output _ rfl).symm.trans
    (emitsAs_assetNames path content rule 0 output _ rfl)
  rw [emitNamed, emitNamed, Option.getD_some, parsed] at same
  injection same with same
  injection same

/-- Rules that emit files treat an asset with the query as they treat it without, but for the query
itself: that is put in the place of its placeholder and stands behind the source. -/
def CarriesQuery (p q : String) : Prop :=
  ∀ content, EmitsAs (p ++ q) content { assetNames p content with query := q.toList }
    (Path.normalize p ++ q)

/-- The placeholder of the query shows it as it is written exactly if normalization passes it
over. -/
theorem query_assetNames_eq_iff (plain : '?' ∉ p.toList) (started : q.toList.head? = some '?') :
    (assetNames (p ++ q) content).query = q.toList ↔ Path.PassedOver q.toList := by
  rw [assetNames, String.toList_append]
  constructor
  · intro same
    have behind : (Path.normalChars (p.toList ++ q.toList)).dropWhile (· != '?') = q.toList := same
    apply Path.passedOver_of_normalChars_eq started
    rw [← behind]
    exact List.takeWhile_append_dropWhile.symm
  · intro passed
    have free := Path.not_mem_openChars plain (by decide) (by decide)
    obtain ⟨after, same⟩ := List.head?_eq_some_iff.mp started
    rw [Path.normalChars_append started passed, AssetNames.of, AssetNames.splitQuery_append free,
      same]
    rfl

theorem carriesQuery_iff (plain : '?' ∉ p.toList) (started : q.toList.head? = some '?') :
    CarriesQuery p q ↔ Path.PassedOver q.toList ∧ Path.EndsNormal p.toList := by
  rw [← Path.normalChars_append_eq_iff started]
  constructor
  · intro carries
    have source := congrArg String.toList (carries []).source_eq
    rwa [String.toList_append, Path.normalize, Path.normalize, String.toList_ofList,
      String.toList_ofList, String.toList_append, eq_comm] at source
  · intro same content
    have ends := (Path.normalChars_append_eq_iff started).mp same
    have free : '?' ∉ Path.normalChars p.toList := by
      rw [← Path.openChars_eq_normalChars_iff.mpr ends.2]
      exact Path.not_mem_openChars plain (by decide) (by decide)
    have source : Path.normalize (p ++ q) = Path.normalize p ++ q := by
      rw [Path.normalize, String.toList_append, same, String.ofList_append, String.ofList_toList,
        Path.normalize]
    have names : assetNames (p ++ q) content =
        { assetNames p content with query := q.toList } := by
      have alone : splitQuery (Path.normalChars p.toList) = (Path.normalChars p.toList, []) := by
        simpa [splitQuery] using AssetNames.splitQuery_append free []
      obtain ⟨after, query⟩ := List.head?_eq_some_iff.mp started
      rw [assetNames, assetNames, String.toList_append, same, AssetNames.of, AssetNames.of,
        AssetNames.splitQuery_append free, alone, query]
      simp [splitQuery]
    rw [← source, ← names]
    exact emitsAs_assetNames _ _

/-- Every asset is emitted under the names of its normal form, so rules treat an asset with a query
as they treat it without, but for the query, exactly if normalization passes the query over and the
path has nothing to drop at its end; the first alone decides whether the query itself is seen
unchanged. -/
theorem query_carried_iff (plain : '?' ∉ p.toList) (started : q.toList.head? = some '?') :
    (∀ path content, EmitsAs path content (assetNames path content) (Path.normalize path)) ∧
      (CarriesQuery p q ↔ Path.PassedOver q.toList ∧ Path.EndsNormal p.toList) ∧
      ∀ content, (assetNames (p ++ q) content).query = q.toList ↔ Path.PassedOver q.toList :=
  ⟨emitsAs_assetNames, carriesQuery_iff plain started,
    fun _ => query_assetNames_eq_iff plain started⟩

/-- A query with names behind its slashes is carried along. -/
theorem query_carried_iff_version :
    '?' ∉ "icons/a.svg".toList ∧ "?v=1/b.png".toList.head? = some '?' ∧
      CarriesQuery "icons/a.svg" "?v=1/b.png" ∧
      ∀ content, (assetNames ("icons/a.svg" ++ "?v=1/b.png") content).query =
        "?v=1/b.png".toList := by
  have plain : '?' ∉ "icons/a.svg".toList := by decide
  have started : "?v=1/b.png".toList.head? = some '?' := by decide
  obtain ⟨_, carried, seen⟩ := query_carried_iff plain started
  exact ⟨plain, started, carried.mpr (by decide), fun content => (seen content).mpr (by decide)⟩

/-- A query with an address in it loses a slash, in the file and in the source. -/
theorem query_not_carried_address :
    let rule : Rule :=
      { matcher := .contains "", output := some (.hashedFile (some "[name][ext][query]")) }
    let output : OutputSettings := ⟨"dist", "[name].js", "[name][ext]", "/", none⟩
    place rule 0 "a.png?u=http://h/p" [0x78] output =
        .ok (.emitted "a.png?u=http:/h/p" "a.png?u=http:/h/p" "dist/a.png" "/a.png?u=http:/h/p" 1
          false) ∧
      ¬ CarriesQuery "a.png" "?u=http://h/p" := by
  intro rule output
  have parsed : Template.parse "[name][ext][query]".toList =
      ⟨[([], "name".toList), ([], "ext".toList), ([], "query".toList)], []⟩ := by
    simp [Template.parse, Text.splitOnce]
  refine ⟨emit_eq_ok_iff.mpr ⟨"a.png?u=http:/h/p".toList,
    (congrArg (Template.render _) parsed).trans ?_, by decide⟩, fun carries => ?_⟩
  · rfl
  · exact absurd ((carriesQuery_iff (by decide) (by decide)).mp carries) (by decide)

end AssetPlan
