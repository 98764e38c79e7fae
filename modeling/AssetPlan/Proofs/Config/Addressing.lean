import AssetPlan.Proofs.Config.Emission
import AssetPlan.Proofs.Output.Digits
import AssetPlan.Proofs.Output.Refusal

/-! # Files that are told apart by their content

A rule that emits assets into files of their own is reported by a build if its template does not
mention the digest. What counts is whether the template shows it: then contents whose digests differ
in the first digit get different paths, and else they get the same one. A rule that is reported
never shows the digest, and does the same with all contents of an asset, but not each rule that is
not reported shows the digest.
-/

namespace AssetPlan

variable {digest : Digest} {output : OutputSettings} {rule : Rule} {index : Nat} {path : String}
  {content content' : Content.Bytes} {filename : Option String} {p p' : Placement}

/-- The template of a rule that emits files without mention of the digest. -/
def Rule.unhashed? (output : OutputSettings) (rule : Rule) : Option String :=
  match rule.output with
  | some (.hashedFile filename) =>
    let template := filename.getD output.assetFilename
    if Template.mentionsHash template.toList then none else some template
  | _ => none

theorem Rule.unhashed?_eq_some_iff {template : String} : rule.unhashed? output = some template ↔
    ∃ filename, rule.output = some (.hashedFile filename) ∧
      template = filename.getD output.assetFilename ∧
      Template.mentionsHash template.toList = false := by
  rw [Rule.unhashed?]
  split
  next filename hashed =>
    rw [Option.ite_none_left_eq_some, Option.some_inj]
    constructor
    · rintro ⟨silent, rfl⟩
      exact ⟨filename, hashed, rfl, Bool.not_eq_true _ ▸ silent⟩
    · rintro ⟨filename', hashed', rfl, silent⟩
      cases hashed.symm.trans hashed'
      exact ⟨Bool.not_eq_true _ ▸ silent, rfl⟩
  next other =>
    refine iff_of_false nofun ?_
    rintro ⟨filename, hashed, _⟩
    exact other filename hashed

theorem unhashedTemplates_eq (output : OutputSettings) (start : Nat) (rules : List Rule) :
    unhashedTemplates output start rules = (rules.zipIdx start).filterMap fun (rule, index) =>
      (rule.unhashed? output).map (rule.label index, ·) := by
  induction rules generalizing start with
  | nil => rfl
  | cons rule rest ih =>
    rw [unhashedTemplates, List.zipIdx_cons, ih (start + 1)]
    split
    next filename hashed =>
      cases mentions : Template.mentionsHash (filename.getD output.assetFilename).toList <;>
        simp [Rule.unhashed?, hashed, mentions]
    next other =>
      have silent : rule.unhashed? output = none := by
        rw [Option.eq_none_iff_forall_ne_some]
        intro template unhashed
        obtain ⟨filename, hashed, _⟩ := Rule.unhashed?_eq_some_iff.mp unhashed
        exact other filename hashed
      simp [silent]

theorem mem_unhashedTemplates_iff {rules : List Rule} {label template : String} :
    (label, template) ∈ unhashedTemplates output 0 rules ↔ ∃ (index : Nat) (rule : Rule),
      rules[index]? = some rule ∧ rule.unhashed? output = some template ∧
        rule.label index = label := by
  rw [unhashedTemplates_eq, List.mem_filterMap]
  constructor
  · rintro ⟨⟨rule, index⟩, member, entry⟩
    obtain ⟨_, unhashed, same⟩ := Option.map_eq_some_iff.mp entry
    obtain ⟨labelled, rfl⟩ := Prod.mk.inj same
    exact ⟨index, rule, List.mk_mem_zipIdx_iff_getElem?.mp member, unhashed, labelled⟩
  · rintro ⟨index, rule, stands, unhashed, rfl⟩
    refine ⟨(rule, index), List.mk_mem_zipIdx_iff_getElem?.mpr stands, ?_⟩
    exact Option.map_eq_some_iff.mpr ⟨_, unhashed, rfl⟩

namespace BuildConfig

variable {b : BuildConfig}

/-- The build reports the template of the rule at a place. -/
def Reports (b : BuildConfig) (index : Nat) (rule : Rule) : Prop :=
  ∃ template, rule.template? b.output = some template ∧
    (rule.label index, template) ∈ unhashedTemplates b.output 0 b.rules

theorem reports_iff (stands : b.rules[index]? = some rule)
    (hashed : rule.output = some (.hashedFile filename)) :
    b.Reports index rule ↔
      Template.mentionsHash (filename.getD b.output.assetFilename).toList = false := by
  have named : rule.template? b.output = some (filename.getD b.output.assetFilename) := by
    rw [Rule.template?, hashed]
    rfl
  constructor
  · rintro ⟨template, named', member⟩
    obtain rfl := Option.some.inj (named.symm.trans named')
    -- a rule of the same label and template may stand in its place
    obtain ⟨_, _, _, unhashed, _⟩ := mem_unhashedTemplates_iff.mp member
    obtain ⟨_, _, _, silent⟩ := Rule.unhashed?_eq_some_iff.mp unhashed
    exact silent
  · intro silent
    have unhashed := Rule.unhashed?_eq_some_iff.mpr ⟨filename, hashed, rfl, silent⟩
    exact ⟨_, named, mem_unhashedTemplates_iff.mpr ⟨index, rule, stands, unhashed, rfl⟩⟩

end BuildConfig

/-- A rule stands at a place and emits files under a template in which no token of the digest
starts. -/
structure Unhashed (output : OutputSettings) (rules : List Rule) (index : Nat) (rule : Rule)
    (template : String) : Prop where
  stands : rules[index]? = some rule
  named : ∃ filename, rule.output = some (.hashedFile filename) ∧
    template = filename.getD output.assetFilename
  silent : ¬ "[hash".toList <:+: template.toList ∧ ¬ "[contenthash".toList <:+: template.toList

theorem mem_unhashedTemplates_iff_unhashed {rules : List Rule} {label template : String} :
    (label, template) ∈ unhashedTemplates output 0 rules ↔
      ∃ index rule, Unhashed output rules index rule template ∧ rule.label index = label := by
  rw [mem_unhashedTemplates_iff]
  constructor
  · rintro ⟨index, rule, stands, unhashed, labelled⟩
    obtain ⟨filename, hashed, named, silent⟩ := Rule.unhashed?_eq_some_iff.mp unhashed
    have absent := Template.mentionsHash_eq_false_iff.mp silent
    exact ⟨index, rule, ⟨stands, ⟨filename, hashed, named⟩, absent⟩, labelled⟩
  · rintro ⟨index, rule, ⟨stands, ⟨filename, hashed, named⟩, absent⟩, labelled⟩
    have silent := Template.mentionsHash_eq_false_iff.mpr absent
    have unhashed := Rule.unhashed?_eq_some_iff.mpr ⟨filename, hashed, named, silent⟩
    exact ⟨index, rule, stands, unhashed, labelled⟩

/-- What is emitted under a template without mention of the digest is settled before the content is
known: the template's first unknown token is reported, or else there is one file. -/
theorem emit_silent {template : String} (silent : Template.mentionsHash template.toList = false)
    (source : String) (output : OutputSettings) (inlineFallback : Bool) :
    (∃ token, (Template.parse template.toList).unknown? = some token ∧ ∀ digest content,
        emit digest source content template output inlineFallback =
          .error (.unknownPlaceholder template (.ofList token))) ∨
      (Template.parse template.toList).unknown? = none ∧
        ∃ file outputPath url, ∀ digest content,
          emit digest source content template output inlineFallback =
            .ok (.emitted source file outputPath url content.length inlineFallback) := by
  cases unknown : (Template.parse template.toList).unknown? with
  | some token =>
    refine .inl ⟨token, rfl, fun digest content => ?_⟩
    rw [emit, Template.render_eq_error_iff.mpr unknown]
  | none =>
    have named : ∃ file, (Template.parse template.toList).render (.of source.toList []) = .ok file :=
      Template.exists_render_iff.mpr unknown
    obtain ⟨file, rendered⟩ := named
    refine .inr ⟨rfl, .ofList file, .ofList (Path.joinChars output.path.toList (splitQuery file).1),
      .ofList (Path.publicChars output.publicPath.toList file), fun digest content => ?_⟩
    rw [emit, Template.render_congr silent _ _ [], rendered]

/-- The report names the rules whose templates have no token of the digest, and such a rule does the
same with all contents of an asset, however they are digested: it refuses them for one token that
stands for nothing, or, if there is none, emits them to one file at one address. -/
theorem unhashed_content_irrelevant (output : OutputSettings) (rules : List Rule) :
    (∀ label template, (label, template) ∈ unhashedTemplates output 0 rules ↔
        ∃ index rule, Unhashed output rules index rule template ∧ rule.label index = label) ∧
      ∀ index rule template, Unhashed output rules index rule template → ∀ path,
        (∃ token, (Template.parse template.toList).unknown? = some token ∧ ∀ digest content,
            placeWith digest rule index path content output =
              .error (.unknownPlaceholder template (.ofList token))) ∨
          (Template.parse template.toList).unknown? = none ∧
            ∃ file outputPath url, ∀ digest content,
              placeWith digest rule index path content output =
                .ok (.emitted (Path.normalize path) file outputPath url content.length false) := by
  refine ⟨fun label template => mem_unhashedTemplates_iff_unhashed, ?_⟩
  rintro index rule template ⟨_, ⟨filename, hashed, rfl⟩, absent⟩ path
  have silent := Template.mentionsHash_eq_false_iff.mpr absent
  have emitted (digest : Digest) (content : Content.Bytes) :
      placeWith digest rule index path content output = emit digest (Path.normalize path) content
        (filename.getD output.assetFilename) output false := by
    rw [placeWith, hashed]
    rfl
  simp only [emitted]
  exact emit_silent silent _ _ _

/-- A table whose one rule keeps the names of its assets is reported, and emits each content of an
asset to one file. -/
theorem unhashed_content_irrelevant_static :
    let output : OutputSettings := ⟨"dist", "[name].js", "static/[name][ext]", "/", none⟩
    let rule : Rule := { matcher := .contains "", output := some (.hashedFile none) }
    unhashedTemplates output 0 [rule] = [("#0", "static/[name][ext]")] ∧
      Unhashed output [rule] 0 rule "static/[name][ext]" ∧
      ∃ file outputPath url, ∀ digest content,
        placeWith digest rule 0 "a.png" content output =
          .ok (.emitted (Path.normalize "a.png") file outputPath url content.length false) := by
  intro output rule
  have unhashed : Unhashed output [rule] 0 rule "static/[name][ext]" :=
    ⟨rfl, ⟨none, rfl, rfl⟩, Template.mentionsHash_eq_false_iff.mp (by decide)⟩
  have parsed : Template.parse "static/[name][ext]".toList =
      ⟨[("static/".toList, "name".toList), ([], "ext".toList)], []⟩ := by
    simp [Template.parse, Text.splitOnce]
  refine ⟨by decide, unhashed, ?_⟩
  rcases (unhashed_content_irrelevant output [rule]).2 0 rule _ unhashed "a.png" with
    ⟨token, unknown, _⟩ | ⟨_, emitted⟩
  · rw [parsed] at unknown
    cases unknown
  · exact emitted

/-- The path of the file that an asset is emitted to. -/
def Placement.outputPath? : Placement → Option String
  | .emitted _ _ outputPath _ _ _ => some outputPath
  | _ => none

/-- A template that shows the digest puts contents that differ in its first digit at different
paths, and another template puts all contents at the same path. -/
theorem outputPath?_two (hex : ∀ content, Content.IsHex (digest content).toList)
    (hashed : rule.output = some (.hashedFile filename))
    (differ : (digest content).toList.head? ≠ (digest content').toList.head?)
    (placed : placeWith digest rule index path content output = .ok p)
    (placed' : placeWith digest rule index path content' output = .ok p') :
    ∃ out out', p.outputPath? = some out ∧ p'.outputPath? = some out' ∧
      if (Template.parse (filename.getD output.assetFilename).toList).showsDigest
          (AssetNames.asks (Path.normalChars path.toList))
      then Path.components out.toList ≠ Path.components out'.toList else out = out' := by
  rw [placeWith, hashed] at placed placed'
  obtain ⟨file, rendered, rfl⟩ := emit_eq_ok_iff.mp placed
  obtain ⟨file', rendered', rfl⟩ := emit_eq_ok_iff.mp placed'
  rw [Path.normalize, String.toList_ofList] at rendered rendered'
  have told := Template.told_of_render (hex content) (hex content') differ rendered rendered'
  refine ⟨_, _, rfl, rfl, ?_⟩
  rw [Told] at told
  split at told
  next shows =>
    rw [if_pos shows, String.toList_ofList, String.toList_ofList]
    exact (told.joinChars _).components_ne
  next hides => rw [if_neg hides, told]

namespace BuildConfig

variable {b : BuildConfig}

/-- A rule tells two contents of an asset apart, by their digests' first digit already, exactly if
its template shows the digest for the asset; the others give all contents one path. No rule that
tells contents apart is reported, and a rule that is not reported only mentions the digest. -/
theorem addressed_by_content (stands : b.rules[index]? = some rule)
    (hashed : rule.output = some (.hashedFile filename)) (path : String) :
    let template := (filename.getD b.output.assetFilename).toList
    let shows := (Template.parse template).showsDigest
      (AssetNames.asks (Path.normalChars path.toList))
    (b.Reports index rule ↔ Template.mentionsHash template = false) ∧
      (shows = true → ¬ b.Reports index rule) ∧
      ∀ digest : Digest, (∀ content, Content.IsHex (digest content).toList) →
        ∀ content content' p p',
          (digest content).toList.head? ≠ (digest content').toList.head? →
          placeWith digest rule index path content b.output = .ok p →
          placeWith digest rule index path content' b.output = .ok p' →
            ∃ out out', p.outputPath? = some out ∧ p'.outputPath? = some out' ∧
              if shows then Path.components out.toList ≠ Path.components out'.toList
              else out = out' := by
  intro template shows
  have reported : b.Reports index rule ↔ Template.mentionsHash template = false :=
    reports_iff stands hashed
  refine ⟨reported, fun shown reports => ?_, ?_⟩
  · have mentions : Template.mentionsHash template = true :=
      Template.mentionsHash_of_showsDigest shown
    rw [reported.mp reports] at mentions
    cases mentions
  · intro digest hex content content' p p' differ placed placed'
    exact outputPath?_two hex hashed differ placed placed'

/-- A digest that tells the empty content from all others. -/
def emptyDigest : Digest := fun content =>
  .ofList (List.replicate 64 (if content.isEmpty then '0' else '1'))

theorem isHex_emptyDigest (content : Content.Bytes) :
    Content.IsHex (emptyDigest content).toList := by
  rw [emptyDigest, String.toList_ofList]
  refine ⟨by simp, fun c member => ?_⟩
  obtain rfl := List.eq_of_mem_replicate member
  split <;> decide

/-- Eight digits behind the name tell contents apart. -/
theorem addressed_by_content_hashed :
    let b := oneRuleConfig "dist" "[name].[hash:8][ext]"
    ∃ rule ∈ b.rules, ¬ b.Reports 0 rule ∧ ∃ p p' out out',
      placeWith emptyDigest rule 0 "a.png" [] b.output = .ok p ∧
        placeWith emptyDigest rule 0 "a.png" [0x78] b.output = .ok p' ∧
        p.outputPath? = some out ∧ p'.outputPath? = some out' ∧
        Path.components out.toList ≠ Path.components out'.toList := by
  intro b
  have parsed : Template.parse "[name].[hash:8][ext]".toList =
      ⟨[([], "name".toList), (".".toList, "hash:8".toList), ([], "ext".toList)], []⟩ := by
    simp [Template.parse, Text.splitOnce]
  have shown : (Template.parse "[name].[hash:8][ext]".toList).showsDigest
      (AssetNames.asks (Path.normalChars "a.png".toList)) = true := by
    rw [parsed]
    decide
  let rule : Rule :=
    { matcher := .contains "", output := some (.hashedFile (some "[name].[hash:8][ext]")) }
  obtain ⟨_, silent, apart⟩ :=
    addressed_by_content (b := b) (show b.rules[0]? = some rule from rfl) rfl "a.png"
  have placed : placeWith emptyDigest rule 0 "a.png" [] b.output = .ok _ :=
    emit_eq_ok_iff.mpr
      ⟨"a.00000000.png".toList, (congrArg (Template.render _) parsed).trans rfl, rfl⟩
  have placed' : placeWith emptyDigest rule 0 "a.png" [0x78] b.output = .ok _ :=
    emit_eq_ok_iff.mpr
      ⟨"a.11111111.png".toList, (congrArg (Template.render _) parsed).trans rfl, rfl⟩
  obtain ⟨out, out', named, named', differ⟩ :=
    apart emptyDigest isHex_emptyDigest [] [0x78] _ _ (by decide) placed placed'
  exact ⟨rule, List.mem_singleton_self _, silent shown, _, _, out, out', placed, placed', named,
    named', (if_pos shown).mp differ⟩

/-- A bracket that is not closed is literal text: nothing is reported, and all contents of an asset
are emitted to one file. -/
theorem unreported_unclosed :
    let b := oneRuleConfig "dist" "[name].[hash.png"
    ofValue (oneRule "dist" "[name].[hash.png") = .ok b ∧
      unhashedTemplates b.output 0 b.rules = [] ∧
      (emptyDigest []).toList.head? ≠ (emptyDigest [0x78]).toList.head? ∧
      ∃ rule ∈ b.rules, ∃ p p',
        placeWith emptyDigest rule 0 "a.png" [] b.output = .ok p ∧
        placeWith emptyDigest rule 0 "a.png" [0x78] b.output = .ok p' ∧
        p.outputPath? = some "dist/a.[hash.png" ∧ p'.outputPath? = some "dist/a.[hash.png" := by
  intro b
  have parsed : Template.parse "[name].[hash.png".toList =
      ⟨[([], "name".toList)], ".[hash.png".toList⟩ := by
    simp [Template.parse, Text.splitOnce]
  refine ⟨ofValue_oneRule (by decide) _, by decide, by decide, _, List.mem_singleton_self _, ?_⟩
  exact ⟨_, _,
    emit_eq_ok_iff.mpr ⟨"a.[hash.png".toList, (congrArg (Template.render _) parsed).trans rfl, rfl⟩,
    emit_eq_ok_iff.mpr ⟨"a.[hash.png".toList, (congrArg (Template.render _) parsed).trans rfl, rfl⟩,
    by decide, by decide⟩

end BuildConfig

end AssetPlan
