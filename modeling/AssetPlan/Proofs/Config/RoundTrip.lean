import AssetPlan.Config.Build
import AssetPlan.Config.Defaults
import AssetPlan.Config.Source
import AssetPlan.Proofs.Schema.Written
import AssetPlan.Rule.Explanation

/-! # Typed values that are written and read back

Each typed value comes back from what is written for it, field by field: what is left out on writing
is what reading puts in, names of variants are read as they are written, and a policy is found by
its type. This holds for a value as it is written and also with its mappings in key order, where the
options of loaders and plugins have to be in order already to come back as they are.
-/

namespace AssetPlan

open Entries Schema Schema.Record Value

/-- Reading undoes writing. -/
structure RoundTrip {α : Type} (read : Reader α) (write : α → Value) (Ordered : α → Prop) :
    Prop where
  read_write : ∀ a, read (write a) = .ok a
  /-- as a value whose mappings are in key order -/
  read_canonical : ∀ a, Ordered a → read (write a).canonical = .ok a
  /-- what was written from a value that was read is a normal form -/
  rewrite : ∀ v a, read v = .ok a → (read (write a)).map write = .ok (write a)
  rewrite_canonical : ∀ v a, v.Ordered → read v = .ok a →
    (read (write a).canonical).map (fun b => (write b).canonical) = .ok (write a).canonical

namespace RoundTrip

variable {α : Type} {read : Reader α} {write : α → Value}

/-- `Options P a` states `P` of the free options inside of `a`. -/
theorem of_options {Options : (Value → Prop) → α → Prop}
    (restored : ∀ {f}, Arranges f → ∀ a, Options (fun v => f v = v) a → read (f (write a)) = .ok a)
    (all : ∀ {P : Value → Prop}, (∀ v, P v) → ∀ a, Options P a)
    (mono : ∀ {P Q : Value → Prop}, (∀ v, P v → Q v) → ∀ a, Options P a → Options Q a)
    (yields : Yields read (Options Ordered)) : RoundTrip read write (Options Ordered) := by
  have plain : ∀ a, read (write a) = .ok a :=
    fun a => restored arranges_id a (all (fun _ => rfl) a)
  have inOrder : ∀ a, Options Ordered a → read (write a).canonical = .ok a :=
    fun a ordered => restored arranges_canonical a (mono canonical_of_ordered a ordered)
  refine ⟨plain, inOrder, fun v a _ => ?_, fun v a ordered success => ?_⟩
  · rw [plain a]
    rfl
  · rw [inOrder a (yields v a ordered success)]
    rfl

/-- A type without free options comes back from every arrangement. -/
theorem of_fixed (restored : ∀ {f}, Arranges f → ∀ a, read (f (write a)) = .ok a) :
    RoundTrip read write fun _ => True :=
  @of_options α read write (fun _ _ => True) (fun arranges a _ => restored arranges a)
    (fun _ _ => trivial) (fun _ _ _ => trivial) fun _ _ _ _ => trivial

end RoundTrip

/-- A statement about the options of a step. -/
def Step.Options (P : Value → Prop) (s : Step) : Prop := P (.object s.options)

/-- A statement about the options of every step. -/
def Pipeline.Options (P : Value → Prop) (p : Pipeline) : Prop := ∀ s ∈ p, s.Options P

/-- A statement about the options of every step of a rule. -/
def Definition.Options (P : Value → Prop) (d : Definition) : Prop := d.pipeline.Options P

/-- A statement about the options of a plugin. -/
def Plugin.Options (P : Value → Prop) (p : Plugin) : Prop := P (.object p.options)

/-- A statement about the options of every plugin that takes part in resolving. -/
def ResolveSettings.Options (P : Value → Prop) (r : ResolveSettings) : Prop :=
  ∀ p ∈ r.plugins, p.Options P

/-- A statement about the options of every minimizer. -/
def Optimization.Options (P : Value → Prop) (o : Optimization) : Prop :=
  ∀ p ∈ o.minimizers, p.Options P

section Arranged

variable {f : Value → Value} (arranges : Arranges f)
include arranges

theorem Step.read_arranged (s : Step) (settled : s.Options fun v => f v = v) :
    Step.read (f s.write) = .ok s :=
  recordWith_written arranges (by decide)
    (((restores_string arranges s.loader).map Step.mk)
      |>.seq (restores_writeMapping settled) (by decide))

theorem Pipeline.read_arranged (p : Pipeline) (settled : p.Options fun v => f v = v) :
    Pipeline.read (f p.write) = .ok p :=
  list_map arranges fun s member => s.read_arranged arranges (settled s member)

namespace OutputPolicy

/-- A policy is found by its type, and has the fields of this type. -/
theorem read_written {kind : Kind} {name : String} {written : List (String × Value)}
    {p : OutputPolicy} (named : readKind (.string name) = .ok kind)
    (tagless : tag ∉ (fields kind).names) (distinct : (fields kind).names.Nodup)
    (restores : (fields kind).Restores f written p) :
    OutputPolicy.read (f (.object (writeField tag (.string name) ++ written))) = .ok p := by
  have tagOnce : tag ∉ keys written := fun member => tagless (restores.keys.subset member)
  have distinct' : (keys (writeField tag (.string name) ++ written)).Nodup :=
    List.nodup_cons.mpr ⟨tagOnce, distinct.sublist restores.keys⟩
  obtain ⟨arranged, shape, found, source⟩ := arranges.exists_arranged distinct'
  have foundTag : find? tag arranged = some (.string name) := by
    rw [found tag, find?_append, writeField, find?_cons, if_pos rfl, Option.some_or,
      Option.map_some, arranges.scalar rfl]
  have foundField : ∀ key ∈ (fields kind).names,
      find? key arranged = (find? key written).map f := by
    intro key declared
    have other : tag ≠ key := fun same => tagless (same ▸ declared)
    rw [found key, find?_append, writeField, find?_cons, if_neg other, find?_nil, Option.none_or]
  have accepted : checkEntries (fields kind) false (erase tag arranged) = .ok () := by
    apply checkEntries_eq_ok
    · exact fun closed => absurd closed Bool.false_ne_true
    · intro key v member declared
      obtain ⟨w, there, rfl⟩ := source ((erase_sublist tag arranged).subset member)
      rcases List.mem_cons.mp there with same | there
      · exact (tagless ((Prod.mk.inj same).1 ▸ declared)).elim
      · exact restores.check there
  rw [shape, OutputPolicy.read, foundTag]
  change (readKind (.string name) >>= fun kind => _) = _
  rw [named, Except.ok_bind]
  change (checkEntries (fields kind) false (erase tag arranged) >>= fun _ => _) = _
  rw [accepted, Except.ok_bind]
  exact restores.ofFields foundField

theorem read_arranged (p : OutputPolicy) :
    OutputPolicy.read (f p.write) = .ok p := by
  cases p with
  | hashedFile filename =>
    have named : readKind (.string "hashed-file") = .ok .hashedFile := rfl
    exact read_written arranges named (by decide) (by decide)
      ((restores_optionalString arranges filename).map hashedFile)
  | inline limit oversize filename =>
    have limitBack : ∀ n ∈ limit, natural "u64" (f (.int n)) = .ok n := by
      intro n _
      rw [arranges.scalar rfl, natural_int]
    have oversizeBack : variantWith isNothing OversizePolicy.variants (f oversize.write) =
        .ok oversize := by
      rw [OversizePolicy.write, arranges.scalar rfl]
      cases oversize <;> rfl
    have named : readKind (.string "inline") = .ok .inline := rfl
    exact read_written arranges named (by decide) (by decide)
      (((restores_writeOptional limitBack fun _ => nofun).map inline)
        |>.seq (restores_writeField oversizeBack) (by decide)
        |>.seq (restores_optionalString arranges filename) (by decide))
  | resource =>
    have named : readKind (.string "resource") = .ok .resource := rfl
    have nothing : (fields .resource).Restores f [] resource :=
      { keys := List.Sublist.slnil
        check := fun member => absurd member List.not_mem_nil
        ofFields := fun _ => rfl }
    exact read_written arranges named (by decide) (by decide) nothing

end OutputPolicy

theorem Definition.read_arranged (d : Definition) (settled : d.Options fun v => f v = v) :
    Definition.read (f d.write) = .ok d := by
  have pipelineBack : ∀ s ∈ d.pipeline, Step.read (f s.write) = .ok s :=
    fun s member => s.read_arranged arranges (settled s member)
  have outputBack : ∀ p ∈ d.output, OutputPolicy.read (f p.write) = .ok p :=
    fun p _ => p.read_arranged arranges
  exact recordWith_written arranges (by decide)
    (((restores_optionalString arranges d.name).map Definition.mk)
      |>.seq (restores_optionalString arranges d.test) (by decide)
      |>.seq (restores_writeFlag arranges d.ignoreCase) (by decide)
      |>.seq (restores_optionalString arranges d.contains) (by decide)
      |>.seq (restores_strings arranges d.scope) (by decide)
      |>.seq (restores_writeFlag arranges d.optionalScope) (by decide)
      |>.seq (restores_writeList arranges pipelineBack) (by decide)
      |>.seq (restores_writeOptional outputBack fun _ => nofun) (by decide))

theorem Plugin.read_arranged (p : Plugin) (settled : p.Options fun v => f v = v) :
    Plugin.read (f p.write) = .ok p :=
  recordWith_written arranges (by decide)
    (((restores_string arranges p.name).map Plugin.mk)
      |>.seq (restores_writeMapping settled) (by decide))

theorem OutputSettings.read_arranged (o : OutputSettings) :
    OutputSettings.read (f o.write) = .ok o :=
  recordWith_written arranges (by decide)
    (((restores_string arranges o.path).map OutputSettings.mk)
      |>.seq (restores_string arranges o.filename) (by decide)
      |>.seq (restores_string arranges o.assetFilename) (by decide)
      |>.seq (restores_string arranges o.publicPath) (by decide)
      |>.seq (restores_optionalString arranges o.chunkFilename) (by decide))

theorem CopyPattern.read_arranged (c : CopyPattern) :
    CopyPattern.read (f c.write) = .ok c :=
  recordWith_written arranges (by decide)
    (((restores_string arranges c.source).map CopyPattern.mk)
      |>.seq (restores_string arranges c.target) (by decide))

theorem ResolveSettings.read_arranged (r : ResolveSettings)
    (settled : r.Options fun v => f v = v) : ResolveSettings.read (f r.write) = .ok r := by
  have extensionsBack : list text (f (.texts r.extensions)) = .ok r.extensions :=
    list_map arranges fun s _ => text_string arranges s
  have pluginsBack : ∀ p ∈ r.plugins, Plugin.read (f p.write) = .ok p :=
    fun p member => p.read_arranged arranges (settled p member)
  have flagBack : ∀ on : Bool, flag (f (.bool on)) = .ok on :=
    fun on => congrArg flag (arranges.scalar rfl)
  exact recordWith_written arranges (by decide)
    (((restores_writeField extensionsBack).map ResolveSettings.mk)
      |>.seq (restores_writeList arranges pluginsBack) (by decide)
      |>.seq (restores_writeOptional (fun on _ => flagBack on) fun _ => nofun) (by decide)
      |>.seq (restores_writeOptional (fun on _ => flagBack on) fun _ => nofun) (by decide))

theorem Optimization.read_arranged (o : Optimization)
    (settled : o.Options fun v => f v = v) : Optimization.read (f o.write) = .ok o := by
  have minimizersBack : list Plugin.read (f (.array (o.minimizers.map Plugin.write))) =
      .ok o.minimizers :=
    list_map arranges fun p member => p.read_arranged arranges (settled p member)
  exact recordWith_written arranges (by decide)
    ((restores_writeField minimizersBack).map Optimization.mk)

theorem Defaults.read_arranged (d : Defaults) :
    Defaults.read (f d.write) = .ok d :=
  recordWith_written arranges (by decide)
    (((restores_string arranges d.outputPath).map Defaults.mk)
      |>.seq (restores_string arranges d.outputFilename) (by decide)
      |>.seq (restores_string arranges d.assetFilename) (by decide)
      |>.seq (restores_string arranges d.publicPath) (by decide))

theorem Source.read_arranged (s : Source) :
    Source.read (f s.write) = .ok s := by
  have originBack : Origin.read (f s.origin.write) = .ok s.origin := by
    rw [Origin.write, arranges.scalar rfl]
    cases s.origin <;> rfl
  exact recordWith_written arranges (by decide)
    (((restores_writeField originBack).map Source.mk)
      |>.seq (restores_optionalString arranges s.path) (by decide)
      |>.seq (restores_optionalString arranges s.digest) (by decide))

theorem TraceEntry.read_arranged (t : TraceEntry) :
    TraceEntry.read (f t.write) = .ok t := by
  have indexBack : natural "usize" (f (.int t.index)) = .ok t.index := by
    rw [arranges.scalar rfl, natural_int]
  have outcomeBack : Outcome.read (f t.outcome.write) = .ok t.outcome := by
    rw [Outcome.write, arranges.scalar rfl]
    cases t.outcome <;> rfl
  exact recordWith_written arranges (by decide)
    (((restores_writeField indexBack).map TraceEntry.mk)
      |>.seq (restores_string arranges t.label) (by decide)
      |>.seq (restores_string arranges t.matcher) (by decide)
      |>.seq (restores_strings arranges t.scope) (by decide)
      |>.seq (restores_writeField outcomeBack) (by decide))

theorem Explanation.read_arranged (e : Explanation) :
    Explanation.read (f e.write) = .ok e := by
  -- the matched rule is written as `null` where there is none
  have ruleBack : nullable (natural "usize")
      (f ((e.matchedRule.map fun n : Nat => Value.int n).getD .null)) = .ok e.matchedRule := by
    cases e.matchedRule with
    | none => exact congrArg _ (arranges.scalar rfl)
    | some n =>
      have numberBack : natural "usize" (f (.int n)) = .ok n := by
        rw [arranges.scalar rfl, natural_int]
      exact nullable_of_eq_ok numberBack fun _ => nofun
  have pipelineBack : list text (f (.texts e.pipeline)) = .ok e.pipeline :=
    list_map arranges fun s _ => text_string arranges s
  have traceBack : list TraceEntry.read (f (.array (e.trace.map TraceEntry.write))) = .ok e.trace :=
    list_map arranges fun t _ => t.read_arranged arranges
  exact recordWith_written arranges (by decide)
    (((restores_string arranges e.path).map Explanation.mk)
      |>.seq (restores_writeField ruleBack) (by decide)
      |>.seq (restores_optionalString arranges e.matchedLabel) (by decide)
      |>.seq (restores_writeField pipelineBack) (by decide)
      |>.seq (restores_optionalString arranges e.output) (by decide)
      |>.seq (restores_writeField traceBack) (by decide))

end Arranged

theorem ordered_noOptions : (Value.object []).Ordered :=
  ordered_object_iff.mpr ⟨ascending_nil, trivial⟩

theorem Step.yields_read : Yields Step.read (Step.Options Ordered) :=
  yields_recordWith
    (.seq (.map (yields_of_forall fun _loader _options ordered => ordered))
      (yields_withDefault yields_mapping ordered_noOptions))

theorem Plugin.yields_read : Yields Plugin.read (Plugin.Options Ordered) :=
  yields_recordWith
    (.seq (.map (yields_of_forall fun _name _options ordered => ordered))
      (yields_withDefault yields_mapping ordered_noOptions))

theorem Definition.yields_read : Yields Definition.read (Definition.Options Ordered) := by
  have pipeline : (withDefault "pipeline" [] (list Step.read)).Yields (Pipeline.Options Ordered) :=
    yields_withDefault Step.yields_read.list (List.forall_mem_nil _)
  have name : (optional "name" text).Yields fun name =>
      ∀ test, True → ∀ ignoreCase, True → ∀ contains, True → ∀ scope, True →
        ∀ optionalScope, True → ∀ pipeline, Pipeline.Options Ordered pipeline → ∀ output, True →
          (Definition.mk name test ignoreCase contains scope optionalScope pipeline output).Options
            Ordered :=
    yields_of_forall fun _ _ _ _ _ _ _ _ _ _ _ pipeline ordered _ _ => ordered
  have free {β : Type} {name : String} {read : Reader β} {absent beyond : Option β} :
      (field name read absent beyond).Yields fun _ => True := yields_of_forall fun _ => trivial
  exact yields_recordWith (.seq (.seq (.seq (.seq (.seq (.seq (.seq
    (.map name) free) free) free) free) free) pipeline) free)

theorem ResolveSettings.yields_read :
    Yields ResolveSettings.read (ResolveSettings.Options Ordered) := by
  have plugins : (withDefault "plugins" [] (list Plugin.read)).Yields
      fun plugins => ∀ p ∈ plugins, p.Options Ordered :=
    yields_withDefault Plugin.yields_read.list (List.forall_mem_nil _)
  have extensions : (withDefault "extensions" [] (list text)).Yields fun extensions =>
      ∀ plugins : List Plugin, (∀ p ∈ plugins, p.Options Ordered) → ∀ symlinks, True →
        ∀ cacheWithContext, True →
          (ResolveSettings.mk extensions plugins symlinks cacheWithContext).Options Ordered :=
    yields_of_forall fun _ _ ordered _ _ _ _ => ordered
  have free {name : String} : (optional name flag).Yields fun _ => True :=
    yields_of_forall fun _ => trivial
  exact yields_recordWith (.seq (.seq (.seq (.map extensions) plugins) free) free)

theorem Optimization.yields_read : Yields Optimization.read (Optimization.Options Ordered) :=
  yields_recordWith
    (.map (yields_withDefault Plugin.yields_read.list (List.forall_mem_nil _)))

/-- Reading undoes writing for all types that are written. -/
theorem read_write_all :
    RoundTrip Definition.read Definition.write (Definition.Options Ordered) ∧
    RoundTrip Step.read Step.write (Step.Options Ordered) ∧
    RoundTrip Pipeline.read Pipeline.write (Pipeline.Options Ordered) ∧
    RoundTrip OutputPolicy.read OutputPolicy.write (fun _ => True) ∧
    RoundTrip Plugin.read Plugin.write (Plugin.Options Ordered) ∧
    RoundTrip OutputSettings.read OutputSettings.write (fun _ => True) ∧
    RoundTrip CopyPattern.read CopyPattern.write (fun _ => True) ∧
    RoundTrip ResolveSettings.read ResolveSettings.write (ResolveSettings.Options Ordered) ∧
    RoundTrip Optimization.read Optimization.write (Optimization.Options Ordered) ∧
    RoundTrip Defaults.read Defaults.write (fun _ => True) ∧
    RoundTrip Source.read Source.write (fun _ => True) ∧
    RoundTrip TraceEntry.read TraceEntry.write (fun _ => True) ∧
    RoundTrip Explanation.read Explanation.write (fun _ => True) := by
  refine ⟨?_, ?_, ?_, .of_fixed OutputPolicy.read_arranged, ?_,
    .of_fixed OutputSettings.read_arranged, .of_fixed CopyPattern.read_arranged, ?_, ?_,
    .of_fixed Defaults.read_arranged, .of_fixed Source.read_arranged,
    .of_fixed TraceEntry.read_arranged, .of_fixed Explanation.read_arranged⟩
  · exact .of_options Definition.read_arranged (fun all _ _ _ => all _)
      (fun mono _ inside s member => mono _ (inside s member)) Definition.yields_read
  · exact .of_options Step.read_arranged (fun all _ => all _) (fun mono _ => mono _)
      Step.yields_read
  · exact .of_options Pipeline.read_arranged (fun all _ _ _ => all _)
      (fun mono _ inside s member => mono _ (inside s member)) Step.yields_read.list
  · exact .of_options Plugin.read_arranged (fun all _ => all _) (fun mono _ => mono _)
      Plugin.yields_read
  · exact .of_options ResolveSettings.read_arranged (fun all _ _ _ => all _)
      (fun mono _ inside p member => mono _ (inside p member)) ResolveSettings.yields_read
  · exact .of_options Optimization.read_arranged (fun all _ _ _ => all _)
      (fun mono _ inside p member => mono _ (inside p member)) Optimization.yields_read

/-- A rule with a loader's options and an inline policy comes back. -/
theorem read_write_all_inline :
    let d : Definition :=
      { name := some "images"
        test := some "\\.png$"
        ignoreCase := true
        scope := ["src/img"]
        pipeline := [{ loader := "resize", options := [("by", .array [.null]), ("to", .object [])] }]
        output := some (.inline (some 8192) .error none) }
    d.Options Ordered ∧ Definition.read d.write = .ok d ∧
      Definition.read d.write.canonical = .ok d := by
  intro d
  have options : (Value.object [("by", .array [.null]), ("to", .object [])]).Ordered := by decide
  have ordered : d.Options Ordered := List.forall_mem_singleton.mpr options
  obtain ⟨rules, _⟩ := read_write_all
  exact ⟨ordered, rules.read_write d, rules.read_canonical d ordered⟩

end AssetPlan
