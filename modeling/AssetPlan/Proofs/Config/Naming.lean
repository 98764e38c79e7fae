import AssetPlan.Proofs.Config.Build
import AssetPlan.Proofs.Config.RoundTrip
import AssetPlan.Proofs.Text.Blank

/-! # Names of plugins

The names of the plugins and the minimizers of a configuration are judged after its mode, source map
style and output settings: a configuration that is accepted has no blank name among them. There is
one gap. The plugins that take part in resolving are plugins of the same form, but nothing judges
their names, so a configuration stays accepted whatever stands there.
-/

namespace AssetPlan

open Config Entries Schema Schema.Record Value

/-- The name has more than blanks. -/
def Plugin.Named (p : Plugin) : Prop := Text.trim p.name.toList ≠ []

/-- Every plugin of a configuration, whatever it takes part in. -/
def BuildConfig.allPlugins (b : BuildConfig) : List Plugin :=
  b.plugins ++ b.resolve.plugins ++ b.optimization.minimizers

/-- What is judged before the names of plugins is not at fault. -/
structure Sections.SoundBeforeNames (s : Sections) : Prop where
  mode : BuildConfig.checkMode s.mode = .ok ()
  devtool : ∃ style, BuildConfig.readDevtool s.devtool = .ok style
  output : BuildConfig.checkOutput s.output = .ok ()

namespace BuildConfig

theorem any_isBlankText_iff {plugins : List Plugin} :
    (plugins.any fun p => Text.isBlankText p.name) ↔ ∃ p ∈ plugins, ¬ p.Named := by
  simp only [List.any_eq_true, Text.isBlankText_iff, Plugin.Named, not_not]

theorem checkPlugins_eq_ok_iff {plugins : List Plugin} :
    checkPlugins plugins = .ok () ↔ ∀ p ∈ plugins, p.Named := by
  rw [checkPlugins]
  split
  next blank =>
    obtain ⟨p, member, unnamed⟩ := any_isBlankText_iff.mp blank
    exact iff_of_false nofun fun named => unnamed (named p member)
  next sound =>
    rw [any_isBlankText_iff] at sound
    push Not at sound
    exact iff_of_true rfl sound

theorem checkPlugins_eq_error_iff {plugins : List Plugin} :
    checkPlugins plugins = .error (.invalid .blankPluginName) ↔ ∃ p ∈ plugins, ¬ p.Named := by
  rw [checkPlugins, ← any_isBlankText_iff]
  split
  next blank => exact iff_of_true rfl blank
  next sound => exact iff_of_false nofun sound

/-- No other judgement blames the name of a plugin. -/
theorem checkMode_ne (mode : Option String) :
    checkMode mode ≠ .error (.invalid .blankPluginName) := by
  cases mode with
  | none => exact nofun
  | some name =>
    rw [checkMode]
    split <;> exact nofun

theorem readDevtool_ne (devtool : Option Value) :
    readDevtool devtool ≠ .error (.invalid .blankPluginName) := by
  rw [readDevtool.eq_def]
  split <;> exact nofun

theorem checkOutput_ne (o : OutputSettings) :
    checkOutput o ≠ .error (.invalid .blankPluginName) := by
  have setting (name value : String) :
      checkSetting name value ≠ .error (.invalid .blankPluginName) := by
    rw [checkSetting]
    split <;> exact nofun
  intro failure
  simp only [checkOutput, Except.bind_eq_error_iff] at failure
  rcases failure with path | ⟨_, _, filename | ⟨_, _, assets⟩⟩
  · exact setting _ _ path
  · exact setting _ _ filename
  · exact setting _ _ assets

/-- Sections are refused for a name exactly if a plugin or a minimizer has a blank one and nothing
before is at fault. -/
theorem ofSections_eq_blankPluginName_iff {s : Sections} :
    ofSections s = .error (.invalid .blankPluginName) ↔
      s.SoundBeforeNames ∧ ∃ p ∈ s.plugins ++ s.optimization.minimizers, ¬ p.Named := by
  simp only [ofSections, Except.bind_eq_error_iff, checkMode_ne, readDevtool_ne, checkOutput_ne,
    checkPlugins_eq_error_iff, Except.mapError_eq_error_iff, reduceCtorEq, false_or, and_false,
    exists_false, or_false]
  constructor
  · rintro ⟨_, mode, style, devtool, _, output, blank⟩
    exact ⟨⟨mode, ⟨style, devtool⟩, output⟩, blank⟩
  · rintro ⟨⟨mode, ⟨style, devtool⟩, output⟩, blank⟩
    exact ⟨(), mode, style, devtool, (), output, blank⟩

theorem ofValue_eq_blankPluginName_iff {v : Value} :
    ofValue v = .error (.invalid .blankPluginName) ↔
      ∃ s, Sections.read v = .ok s ∧ s.SoundBeforeNames ∧
        ∃ p ∈ s.plugins ++ s.optimization.minimizers, ¬ p.Named := by
  simp only [ofValue, Except.bind_eq_error_iff, Except.mapError_eq_error_iff,
    Except.mapError_eq_ok_iff, ofSections_eq_blankPluginName_iff, ConfigError.invalid.injEq,
    reduceCtorEq, and_false, exists_false, false_or]

theorem named_of_ofValue {v : Value} {b : BuildConfig} (accepted : ofValue v = .ok b) :
    ∀ p ∈ b.plugins ++ b.optimization.minimizers, p.Named := by
  obtain ⟨s, _, judged⟩ := ofValue_eq_ok_iff.mp accepted
  obtain ⟨_, _, _, _, names, _, _, rfl⟩ := ofSections_eq_ok_iff.mp judged
  exact checkPlugins_eq_ok_iff.mp names

end BuildConfig

/-- The section on resolving passes every judgement. -/
theorem BuildConfig.ofSections_resolve (s : Sections) (r : ResolveSettings) :
    ofSections { s with resolve := r } = (ofSections s).map fun b => { b with resolve := r } := by
  simp only [ofSections, Except.map_bind]
  rfl

/-- A configuration's mapping takes any section on resolving that can be read. -/
theorem Sections.read_insert_resolve {entries : Entries} {s : Sections} {w : Value}
    {r : ResolveSettings} (success : read (.object entries) = .ok s)
    (taken : ResolveSettings.read w = .ok r) :
    read (.object (Entries.insert "resolve" w entries)) = .ok { s with resolve := r } := by
  obtain ⟨mode, devtool, output, rules, plugins, _, optimization⟩ := ofFields_of_read success
  obtain ⟨_, accepted, _⟩ := Except.bind_eq_ok_iff.mp success
  have kept {α : Type} {name : String} {read : Reader α} {absent beyond : Option α}
      (other : "resolve" ≠ name) :
      (field name read absent beyond).ofFields
          (fun key => find? key (Entries.insert "resolve" w entries)) =
        (field name read absent beyond).ofFields fun key => find? key entries := by
    rw [ofFields_field, ofFields_field, find?_insert, if_neg other]
  have here : find? "resolve" (Entries.insert "resolve" w entries) = some w := by
    rw [find?_insert, if_pos rfl]
  refine Except.bind_eq_ok_iff.mpr ⟨(), checkEntries_insert_eq_ok accepted (by decide) ?_, ?_⟩
  · exact congrArg (Except.map fun _ => ()) taken
  · simp only [ofFields_seq_eq_ok_iff, ofFields_map_eq_ok_iff]
    refine ⟨_, ⟨_, ⟨_, ⟨_, ⟨_, ⟨_, ⟨s.mode, ?_, rfl⟩, s.devtool, ?_, rfl⟩, s.output, ?_, rfl⟩, s.rules,
      ?_, rfl⟩, s.plugins, ?_, rfl⟩, r, ?_, rfl⟩, s.optimization, ?_, rfl⟩
    · exact (kept (by decide)).trans mode
    · exact (kept (by decide)).trans devtool
    · exact (kept (by decide)).trans output
    · exact (kept (by decide)).trans rules
    · exact (kept (by decide)).trans plugins
    · exact ofFields_withDefault_eq_ok_iff.mpr (.inr ⟨w, here, taken⟩)
    · exact (kept (by decide)).trans optimization

namespace BuildConfig

theorem ofValue_insert_resolve {entries : Entries} {b : BuildConfig} {w : Value}
    {r : ResolveSettings} (accepted : ofValue (.object entries) = .ok b)
    (taken : ResolveSettings.read w = .ok r) :
    ofValue (.object (Entries.insert "resolve" w entries)) = .ok { b with resolve := r } := by
  obtain ⟨s, success, judged⟩ := ofValue_eq_ok_iff.mp accepted
  refine ofValue_eq_ok_iff.mpr ⟨_, Sections.read_insert_resolve success taken, ?_⟩
  rw [ofSections_resolve, judged]
  rfl

/-- A configuration is refused for a name exactly if a plugin or a minimizer has a blank one and
nothing that is judged before is at fault. One that is accepted has all its plugins named exactly if
those that take part in resolving are, and these can be any. -/
theorem ofValue_named (v : Value) :
    (ofValue v = .error (.invalid .blankPluginName) ↔
      ∃ s, Sections.read v = .ok s ∧ s.SoundBeforeNames ∧
        ∃ p ∈ s.plugins ++ s.optimization.minimizers, ¬ p.Named) ∧
    ∀ b, ofValue v = .ok b →
      (∀ p ∈ b.plugins ++ b.optimization.minimizers, p.Named) ∧
      ((∀ p ∈ b.allPlugins, p.Named) ↔ ∀ p ∈ b.resolve.plugins, p.Named) ∧
      ∀ entries, v = .object entries → ∀ r : ResolveSettings, r.Options Ordered →
        ofValue (.object (Entries.insert "resolve" r.write.canonical entries)) =
          .ok { b with resolve := r } := by
  refine ⟨ofValue_eq_blankPluginName_iff, fun b accepted => ?_⟩
  have named := named_of_ofValue accepted
  refine ⟨named, ?_, ?_⟩
  · rw [List.forall_mem_append] at named
    rw [allPlugins, List.forall_mem_append, List.forall_mem_append, and_iff_left named.2,
      and_iff_right named.1]
  · rintro entries rfl r ordered
    have settled : r.Options fun w => w.canonical = w :=
      fun p member => canonical_of_ordered _ (ordered p member)
    exact ofValue_insert_resolve accepted (r.read_arranged arranges_canonical settled)

/-- A name among blanks is a name; a resolver is put beside it afterwards. -/
theorem ofValue_named_minimizer :
    let minimizer : Value := .object [("name", .string "\u2003terser ")]
    let entries : Entries := [
      ("optimization", .object [("minimizers", .array [minimizer])]),
      ("output", .object [("asset_filename", .string "[hash][ext]"),
        ("filename", .string "[name].js"), ("path", .string "dist"), ("public_path", .string "/")])]
    let r : ResolveSettings :=
      { plugins := [{ name := "paths", options := [("file", .string "paths.json")] }] }
    r.Options Ordered ∧ ∃ b, ofValue (.object entries) = .ok b ∧ b.allPlugins.length = 1 ∧
      (∀ p ∈ b.allPlugins, p.Named) ∧
      ofValue (.object (Entries.insert "resolve" r.write.canonical entries)) =
        .ok { b with resolve := r } := by
  intro minimizer entries r
  have options : (Value.object [("file", .string "paths.json")]).Ordered := by decide
  have ordered : r.Options Ordered := List.forall_mem_singleton.mpr options
  obtain ⟨b, accepted, one, none⟩ : ∃ b, ofValue (.object entries) = .ok b ∧
      b.allPlugins.length = 1 ∧ b.resolve.plugins = [] := ⟨_, rfl, rfl, rfl⟩
  obtain ⟨_, named, resolvers⟩ := (ofValue_named (.object entries)).2 b accepted
  refine ⟨ordered, b, accepted, one, named.mpr ?_, resolvers entries rfl r ordered⟩
  rw [none]
  exact List.forall_mem_nil _

/-- A resolver is accepted whose name is a blank, where a minimizer with this name is refused. -/
theorem ofValue_blank_resolver :
    let blank : Value := .array [.object [("name", .string " ")]]
    let output : Value := .object [("asset_filename", .string "[hash][ext]"),
      ("filename", .string "[name].js"), ("path", .string "dist"), ("public_path", .string "/")]
    (∃ b, ofValue (.object [("output", output), ("resolve", .object [("plugins", blank)])]) = .ok b ∧
      ∃ p ∈ b.allPlugins, ¬ p.Named) ∧
    ofValue (.object [("optimization", .object [("minimizers", blank)]), ("output", output)]) =
      .error (.invalid .blankPluginName) :=
  ⟨⟨_, rfl, _, List.mem_singleton_self _, not_not.mpr rfl⟩, rfl⟩

end BuildConfig

end AssetPlan
