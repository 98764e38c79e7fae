import AssetPlan.Proofs.Config.Build
import AssetPlan.Proofs.Output.Placement
import AssetPlan.Proofs.Output.Template

/-! # Emitted files and the output directory

An emitted file is put where joining its name to the output directory leads, and accepting a
configuration does not judge its templates: a name that starts with a slash replaces the output
directory, though the address of the file drops the slash, and a name may climb. So an asset stays
below the output directory of every configuration exactly if its template names a file for it that
does, and whether that is so for all assets can be told from the template.
-/

namespace AssetPlan

open AssetPlan.Path (Below)

/-- Whatever accepted configuration places the asset under the template, the file it is emitted to
lies at least `n` names below the output directory. -/
def EmitsBelow (n : Nat) (template path : String) (content : Content.Bytes) : Prop :=
  ∀ v b, BuildConfig.ofValue v = .ok b →
    ∀ rule : Rule, rule.template? b.output = some template →
      ∀ index source file outputPath url size inlineFallback,
        place rule index path content b.output =
            .ok (.emitted source file outputPath url size inlineFallback) →
          Below n b.output.path.toList outputPath.toList

variable {n : Nat} {template path : String} {content : Content.Bytes}

theorem emitsBelow_of_staysBelow
    (stays : (Template.parse template.toList).staysBelow n (assetNames path content) = true) :
    EmitsBelow n template path content := by
  intro v b _ rule named index source file outputPath url size inlineFallback placed
  obtain ⟨known, fallback, named', emitted⟩ := emit_of_placeWith placed
  obtain rfl : known = template := by simpa [named] using named'.symm
  obtain ⟨text, rendered, same⟩ := emit_eq_ok_iff.mp emitted
  cases same
  rw [Path.normalize, String.toList_ofList] at rendered
  rw [Template.staysBelow, assetNames, rendered] at stays
  rw [String.toList_ofList]
  exact Path.below_joinChars stays _

/-- A configuration whose one rule emits every asset into `dir` under `template`. -/
def oneRule (dir template : String) : Value :=
  .object [
    ("output", .object [("asset_filename", .string "[name][ext]"), ("filename", .string "[name].js"),
      ("path", .string dir), ("public_path", .string "/")]),
    ("rules", .array [.object [("contains", .string ""),
      ("output", .object [("filename", .string template), ("type", .string "hashed-file")])]])]

/-- The configuration that one rule makes. -/
def oneRuleConfig (dir template : String) : BuildConfig where
  mode := none
  devtool := none
  output :=
    { path := dir
      filename := "[name].js"
      assetFilename := "[name][ext]"
      publicPath := "/" }
  rules := [{ matcher := .contains "", output := some (.hashedFile (some template)) }]
  plugins := []
  resolve := {}
  optimization := {}

theorem ofValue_oneRule {dir : String} (named : Text.isBlankText dir = false) (template : String) :
    BuildConfig.ofValue (oneRule dir template) = .ok (oneRuleConfig dir template) := by
  rw [BuildConfig.ofValue_eq_ok_iff]
  refine ⟨_, rfl, BuildConfig.ofSections_eq_ok_iff.mpr ⟨rfl, _, rfl, ?_, rfl, _, rfl, rfl⟩⟩
  have others : Text.isBlankText "[name].js" = false ∧ Text.isBlankText "[name][ext]" = false := by
    decide
  simp [BuildConfig.checkOutput, BuildConfig.checkSetting, named, others, Except.ok_bind]

theorem isBlankText_freshName (p : List Char) :
    Text.isBlankText (.ofList (Path.freshName p)) = false := by
  rw [Text.isBlankText, String.toList_ofList]
  rfl

/-- An asset whose template leads it away from the output directory is emitted away from it under
some configuration, by the rule of that configuration. -/
theorem exists_emitted_outside
    (leaves : (Template.parse template.toList).staysBelow n (assetNames path content) = false) :
    ∃ v b, BuildConfig.ofValue v = .ok b ∧ ∃ rule ∈ b.rules,
      rule.template? b.output = some template ∧
        ∃ source file outputPath url size, place rule 0 path content b.output =
            .ok (.emitted source file outputPath url size false) ∧
          ¬ Below n b.output.path.toList outputPath.toList := by
  rw [Template.staysBelow] at leaves
  split at leaves
  next => cases leaves
  next file rendered =>
    let dir := Path.freshName (splitQuery file).1
    let b := oneRuleConfig (.ofList dir) template
    refine ⟨_, b, ofValue_oneRule (isBlankText_freshName _) template, _, List.mem_singleton_self _,
      rfl, _, _, _, _, _, emit_eq_ok_iff.mpr ⟨file, ?_, rfl⟩, ?_⟩
    · rw [Path.normalize, String.toList_ofList]
      exact rendered
    · have atDir : b.output.path.toList = dir := String.toList_ofList
      rw [String.toList_ofList, atDir]
      exact Path.not_below_joinChars leaves

theorem emitsBelow_iff_staysBelow : EmitsBelow n template path content ↔
    (Template.parse template.toList).staysBelow n (assetNames path content) = true := by
  refine ⟨fun below => ?_, emitsBelow_of_staysBelow⟩
  cases stays : (Template.parse template.toList).staysBelow n (assetNames path content) with
  | true => rfl
  | false =>
    obtain ⟨v, b, accepted, rule, _, named, _, _, _, _, _, placed, outside⟩ :=
      exists_emitted_outside stays
    exact (outside (below v b accepted rule named _ _ _ _ _ _ _ placed)).elim

namespace BuildConfig

/-- An asset stays below the output directory exactly if its template names a file for it that does,
and all assets do exactly if fourteen samples do. -/
theorem emitsBelow_iff (n : Nat) (template : String) :
    (∀ path content, EmitsBelow n template path content ↔
        (Template.parse template.toList).staysBelow n (assetNames path content) = true) ∧
      ((∀ path content, EmitsBelow n template path content) ↔
        (Template.parse template.toList).keepsBelow n = true) := by
  refine ⟨fun path content => emitsBelow_iff_staysBelow, ?_⟩
  rw [Template.keepsBelow_iff]
  constructor
  · intro below path content
    have stays := emitsBelow_iff_staysBelow.mp (below (.ofList path) content)
    rwa [assetNames, String.toList_ofList] at stays
  · exact fun stays path content => emitsBelow_iff_staysBelow.mpr (stays path.toList content)

/-- Digests keep every asset inside the output directory. -/
theorem emitsBelow_iff_hashed :
    ∀ path content, EmitsBelow 1 "assets/[hash][ext][query]" path content :=
  (emitsBelow_iff 1 _).2.mpr (by decide +kernel)

/-- Behind a slash, an asset is emitted beside the output directory. -/
theorem emitted_leading_slash :
    let b := oneRuleConfig "dist" "/assets/[name][ext]"
    ofValue (oneRule "dist" "/assets/[name][ext]") = .ok b ∧
      ∃ rule ∈ b.rules, place rule 0 "a.png" [0x78] b.output =
          .ok (.emitted "a.png" "/assets/a.png" "/assets/a.png" "/assets/a.png" 1 false) ∧
        ¬ Below 0 b.output.path.toList "/assets/a.png".toList := by
  intro b
  refine ⟨ofValue_oneRule (by decide) _, _, List.mem_singleton_self _,
    emit_eq_ok_iff.mpr ⟨"/assets/a.png".toList, ?_, by decide⟩, fun below => ?_⟩
  · have parsed : Template.parse "/assets/[name][ext]".toList =
        ⟨[("/assets/".toList, "name".toList), ([], "ext".toList)], []⟩ := by
      simp [Template.parse, Text.splitOnce]
    exact (congrArg (Template.render _) parsed).trans rfl
  · obtain ⟨names, same, _⟩ := below []
    have member : "dist".toList ∈ Path.locate [] "/assets/a.png".toList :=
      same ▸ List.mem_append_right _ (by decide)
    exact absurd member (by decide)

end BuildConfig

end AssetPlan
