import AssetPlan.Config.Build
import AssetPlan.Proofs.Schema.Record
import Mathlib.Logic.Unique

/-! # Configurations that were accepted

What the parts of an accepted configuration come from: each section from its field, and the build
configuration from the sections.
-/

namespace AssetPlan

open Schema Schema.Record

/-- Each section is read from its own field. -/
theorem Sections.ofFields_of_read {entries : Entries} {s : Sections}
    (success : Sections.read (.object entries) = .ok s) :
    let get := fun key => Entries.find? key entries
    (optional "mode" text).ofFields get = .ok s.mode ∧
      (optional "devtool" anything).ofFields get = .ok s.devtool ∧
      (required "output" OutputSettings.read).ofFields get = .ok s.output ∧
      (withDefault "rules" [] (list Definition.read)).ofFields get = .ok s.rules ∧
      (withDefault "plugins" [] (list Plugin.read)).ofFields get = .ok s.plugins ∧
      (withDefault "resolve" {} ResolveSettings.read).ofFields get = .ok s.resolve ∧
      (withDefault "optimization" {} Optimization.read).ofFields get = .ok s.optimization := by
  rw [Sections.read, record] at success
  have fields := ofFields_of_recordWith success
  simp only [ofFields_seq_eq_ok_iff, ofFields_map_eq_ok_iff] at fields
  obtain ⟨_, ⟨_, ⟨_, ⟨_, ⟨_, ⟨_, ⟨mode, atMode, rfl⟩, devtool, atDevtool, rfl⟩, output, atOutput,
    rfl⟩, rules, atRules, rfl⟩, plugins, atPlugins, rfl⟩, resolve, atResolve, rfl⟩, optimization,
    atOptimization, rfl⟩ := fields
  exact ⟨atMode, atDevtool, atOutput, atRules, atPlugins, atResolve, atOptimization⟩

namespace BuildConfig

/-- Sections are accepted if every judgement accepts them and the rules compile. -/
theorem ofSections_eq_ok_iff {s : Sections} {b : BuildConfig} :
    ofSections s = .ok b ↔
      checkMode s.mode = .ok () ∧ ∃ devtool, readDevtool s.devtool = .ok devtool ∧
        checkOutput s.output = .ok () ∧
        checkPlugins (s.plugins ++ s.optimization.minimizers) = .ok () ∧
        ∃ rules, RuleTable.compile s.rules = .ok rules ∧
          { mode := s.mode
            devtool := devtool
            output := s.output
            rules := rules
            plugins := s.plugins
            resolve := s.resolve
            optimization := s.optimization } = b := by
  simp only [ofSections, Except.bind_eq_ok_iff, Except.mapError_eq_ok_iff, Except.ok.injEq,
    Unique.exists_iff]

theorem ofValue_eq_ok_iff {v : Value} {b : BuildConfig} :
    ofValue v = .ok b ↔ ∃ s, Sections.read v = .ok s ∧ ofSections s = .ok b := by
  simp only [ofValue, Except.bind_eq_ok_iff, Except.mapError_eq_ok_iff]

end BuildConfig

end AssetPlan
