import AssetPlan.Proofs.Config.Emission
import AssetPlan.Proofs.Config.Rebuilding
import AssetPlan.Proofs.Output.Refusal

/-! # Placing under a configuration that was built

Building a configuration does not judge its templates. Where all of them can be read, an asset is
refused for its size only. A template with a token that stands for nothing is accepted all the same,
and is found when the first asset is emitted under it: at once for a rule that emits all assets, and
at the first asset over the limit for an inline rule.
-/

namespace AssetPlan

open Config Entries Value

namespace Effective

/-- Whatever asset a rule with a policy takes, it is placed, or else refused for its size. -/
def PlacesAll (e : Effective) : Prop :=
  ∀ path index rule content, e.build.rules.resolve path = .matched index rule →
    rule.output ≠ none →
      (∃ p, place rule index path content e.build.output = .ok p) ∨
        ∃ source size limit, place rule index path content e.build.output =
          .error (.overInlineLimit source size limit)

/-- Every token stands for something, in all templates under which a rule emits assets. -/
def KnowsTokens (e : Effective) : Prop :=
  ∀ path index rule policy size template, e.build.rules.resolve path = .matched index rule →
    rule.output = some policy → policy.emitting? e.build.output size = some template →
      (Template.parse template.toList).unknown? = none

theorem placesAll_iff (e : Effective) : e.PlacesAll ↔ e.KnowsTokens := by
  constructor
  · intro places path index rule policy size template resolved known emits
    rw [Option.eq_none_iff_forall_ne_some]
    intro token unknown
    let content : Content.Bytes := List.replicate size 0
    have sized : content.length = size := List.length_replicate
    have refuses : policy.Refuses e.build.output (Path.normalize path) content.length
        (.unknownPlaceholder template (.ofList token)) := .unknownToken (sized ▸ emits) unknown
    have refused : place rule index path content e.build.output = _ :=
      (placeWith_eq_error_iff known).mpr refuses
    rcases places path index rule content resolved (by simp [known]) with
      ⟨_, placed⟩ | ⟨_, _, _, overLimit⟩
    · cases refused.symm.trans placed
    · cases refused.symm.trans overLimit
  · intro knows path index rule content resolved present
    obtain ⟨policy, known⟩ := Option.ne_none_iff_exists'.mp present
    cases outcome : place rule index path content e.build.output with
    | ok p => exact .inl ⟨p, rfl⟩
    | error failure =>
      cases (placeWith_eq_error_iff known).mp outcome with
      | overLimit => exact .inr ⟨_, _, _, rfl⟩
      | unknownToken emits unknown =>
        have readable := knows path index rule policy _ _ resolved known emits
        cases readable.symm.trans unknown

/-- The project of one rule, which emits every asset under a template. -/
def oneRuleProject (template : String) : Project :=
  { common := oneRule "dist" template
    environments := []
    source := { origin := .project } }

theorem sortedAt_oneRule (dir template : String) : SortedAt "output" (oneRule dir template) := by
  have keys : List.Pairwise (· < ·) ["output", "rules"] := by decide
  have settings : List.Pairwise (· < ·) ["asset_filename", "filename", "path", "public_path"] := by
    decide
  exact ⟨_, rfl, keys, _, rfl, _, rfl, settings⟩

theorem ofLayers_oneRuleProject (isDir : String → Bool) (defaults : Defaults) (template : String) :
    ∃ e, (ofLayers isDir defaults (oneRuleProject template) {}).result = .ok e ∧
      e.build = oneRuleConfig "dist" template := by
  have named : Text.isBlankText "dist" = false := by decide
  have accepted := ofValue_oneRule named template
  have merged := BuildConfig.mergeLayers_defaults accepted (sortedAt_oneRule _ _) defaults
  exact ⟨_, result_ofLayers_eq_ok_iff.mpr ⟨_, _, _, merged, accepted, rfl, rfl⟩, rfl⟩

theorem resolve_oneRuleConfig (dir template path : String) :
    ∃ rule, (oneRuleConfig dir template).rules.resolve path = .matched 0 rule ∧
      rule.output = some (.hashedFile (some template)) := by
  let rule : Rule := { matcher := .contains "", output := some (.hashedFile (some template)) }
  have taken : rule.check (Path.normalize path) = .matched := by
    simp [rule, Rule.check, Rule.inScope, Matcher.isMatch, Text.occursIn_iff]
  refine ⟨rule, ?_, rfl⟩
  change RuleTable.resolveFrom (Path.normalize path) 0 [rule] = .matched 0 rule
  rw [RuleTable.resolveFrom, if_pos taken]

/-- A template with an unknown token is accepted, and then no asset can be placed under it. -/
theorem exists_unplaceable (isDir : String → Bool) (defaults : Defaults) {template : String}
    {token : List Char} (unknown : (Template.parse template.toList).unknown? = some token) :
    ∃ e, (ofLayers isDir defaults (oneRuleProject template) {}).result = .ok e ∧
      ∀ path content, ∃ rule, e.build.rules.resolve path = .matched 0 rule ∧
        place rule 0 path content e.build.output =
          .error (.unknownPlaceholder template (.ofList token)) := by
  obtain ⟨e, built, same⟩ := ofLayers_oneRuleProject isDir defaults template
  refine ⟨e, built, fun path content => ?_⟩
  rw [same]
  obtain ⟨rule, resolved, known⟩ := resolve_oneRuleConfig "dist" template path
  exact ⟨rule, resolved, (placeWith_eq_error_iff known).mpr (.unknownToken rfl unknown)⟩

/-- After a build, placing an asset fails exactly if the policy of its rule refuses it, so that all
assets are placed or over their limit exactly if all templates can be read. Building itself finds no
template that cannot. -/
theorem placing_after_build (isDir : String → Bool) (defaults : Defaults) :
    (∀ project options e, (ofLayers isDir defaults project options).result = .ok e →
      (∀ path index rule policy content failure,
        e.build.rules.resolve path = .matched index rule → rule.output = some policy →
          (place rule index path content e.build.output = .error failure ↔
            policy.Refuses e.build.output (Path.normalize path) content.length failure)) ∧
      (e.PlacesAll ↔ e.KnowsTokens)) ∧
    ∀ template token, (Template.parse template.toList).unknown? = some token →
      ∃ e, (ofLayers isDir defaults (oneRuleProject template) {}).result = .ok e ∧
        ∀ path content, ∃ rule, e.build.rules.resolve path = .matched 0 rule ∧
          place rule 0 path content e.build.output =
            .error (.unknownPlaceholder template (.ofList token)) := by
  refine ⟨fun project options e _ => ⟨?_, placesAll_iff e⟩, ?_⟩
  · intro path index rule policy content failure _ known
    exact placeWith_eq_error_iff known
  · intro template token unknown
    exact exists_unplaceable isDir defaults unknown

/-- Under digests, every asset is placed. -/
theorem placing_after_build_hashed :
    ∃ e, (ofLayers (fun _ => false) {} (oneRuleProject "[hash][ext]") {}).result = .ok e ∧
      e.PlacesAll := by
  obtain ⟨e, built, same⟩ := ofLayers_oneRuleProject (fun _ => false) {} "[hash][ext]"
  have readable : (Template.parse "[hash][ext]".toList).unknown? = none := by
    have parsed : Template.parse "[hash][ext]".toList =
        ⟨[([], "hash".toList), ([], "ext".toList)], []⟩ := by simp [Template.parse, Text.splitOnce]
    rw [parsed]
    rfl
  refine ⟨e, built, ((placing_after_build _ _).1 _ _ _ built).2.mpr ?_⟩
  intro path index rule policy size template resolved known emits
  rw [same] at resolved emits
  obtain ⟨rule', resolved', known'⟩ := resolve_oneRuleConfig "dist" "[hash][ext]" path
  cases resolved.symm.trans resolved'
  cases known.symm.trans known'
  cases emits
  exact readable

/-- A misspelled placeholder is found by the first asset. -/
theorem build_unknown_placeholder :
    ∃ e rule, (ofLayers (fun _ => false) {} (oneRuleProject "[id][ext]") {}).result = .ok e ∧
      e.build.rules.resolve "a.png" = .matched 0 rule ∧
        place rule 0 "a.png" [0x78] e.build.output =
          .error (.unknownPlaceholder "[id][ext]" "id") ∧
        ¬ e.PlacesAll := by
  have unknown : (Template.parse "[id][ext]".toList).unknown? = some "id".toList := by
    have parsed : Template.parse "[id][ext]".toList =
        ⟨[([], "id".toList), ([], "ext".toList)], []⟩ := by simp [Template.parse, Text.splitOnce]
    rw [parsed]
    rfl
  obtain ⟨e, built, fails⟩ := exists_unplaceable (fun _ => false) {} unknown
  obtain ⟨rule, resolved, failed⟩ := fails "a.png" [0x78]
  refine ⟨e, rule, built, resolved, failed, fun places => ?_⟩
  have present : rule.output ≠ none := by
    intro absent
    rw [place, placeWith, absent] at failed
    cases failed
  rcases places _ _ _ _ resolved present with ⟨_, placed⟩ | ⟨_, _, _, overLimit⟩
  · cases failed.symm.trans placed
  · cases failed.symm.trans overLimit

end Effective

end AssetPlan
