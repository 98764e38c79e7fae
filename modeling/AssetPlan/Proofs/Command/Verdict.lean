import AssetPlan.Command.Run
import AssetPlan.Proofs.Config.Sequential
import AssetPlan.Proofs.Text.Split

/-! # The verdict on a configuration

Judging a configuration ends well exactly if it can be built and the files it copies can be read.
What is printed is another verdict: the line that calls a configuration valid stands before those
files are looked at, so it tells no more than that the configuration can be built.
-/

namespace AssetPlan

open Config

/-- What a selection asks a build for, with the layer of its assignments. -/
def Selection.options (selection : Selection) (overrides : Option Value) : BuildOptions :=
  { environment := selection.environment
    overrides := overrides
    scopeRoot := selection.root
    skipScopeCheck := selection.skipScopeCheck }

/-- A selection builds a configuration: its project can be loaded, its assignments can be read, and
their layers can be built. -/
inductive Selection.Builds (s : Surroundings) (selection : Selection) (e : Effective) : Prop
  | intro {project : Project} {overrides : Option Value}
    (selected : (selection.project s).result = .ok project)
    (assigned : parseAssignments selection.assignments = .ok overrides)
    (built : (Effective.ofLayers s.isDir (Defaults.withAssetPath s.assetPath) project
      (selection.options overrides)).result = .ok e)

variable {s : Surroundings} {selection : Selection} {e : Effective}

theorem Selection.builds_iff : selection.Builds s e ↔ (selection.effective s).result = .ok e := by
  simp only [result_effective, Except.bind_eq_ok_iff, Effective.ofAssignments_eq_ok_iff]
  constructor
  · rintro ⟨selected, assigned, built⟩
    exact ⟨_, selected, _, assigned, built⟩
  · rintro ⟨_, selected, _, assigned, built⟩
    exact ⟨selected, assigned, built⟩

/-- A selection builds one configuration at most. -/
theorem Selection.Builds.unique {e' : Effective} (builds : selection.Builds s e)
    (builds' : selection.Builds s e') : e = e' :=
  Except.ok.inj ((builds_iff.mp builds).symm.trans (builds_iff.mp builds'))

namespace Command

/-- A text has a line that calls a configuration valid. -/
def CallsValid (text : String) : Prop :=
  ∃ line ∈ Text.split '\n' text.toList, "Configuration valid".toList <+: line

instance (text : String) : Decidable (CallsValid text) :=
  inferInstanceAs (Decidable (∃ line ∈ Text.split '\n' text.toList, _))

theorem not_callsValid_empty : ¬ CallsValid "" := by decide

/-- A text calls a configuration valid if its first line does. -/
theorem callsValid_append (rest : String) : CallsValid ("Configuration valid" ++ rest) := by
  obtain ⟨piece, pieces, _, behind⟩ := Text.split_append_of_not_mem
    (by decide : '\n' ∉ "Configuration valid".toList) rest.toList
  refine ⟨"Configuration valid".toList ++ piece, ?_, List.prefix_append _ _⟩
  rw [String.toList_append, behind]
  exact List.mem_cons_self

theorem exists_validLine_eq (root : Option String) :
    ∃ rest, validLine root = "Configuration valid" ++ rest := by
  cases root with
  | none => exact ⟨" (scope check skipped)", by decide⟩
  | some root =>
    have front : "Configuration valid (scopes checked under " =
        "Configuration valid" ++ " (scopes checked under " := by decide
    refine ⟨" (scopes checked under " ++ root ++ ")", ?_⟩
    change "Configuration valid (scopes checked under " ++ root ++ ")" = _
    rw [front, String.append_assoc, String.append_assoc, String.append_assoc]

/-- Every summary calls its configuration valid, whatever stands behind it. -/
theorem callsValid_summary (e : Effective) (more : List String) :
    CallsValid (unlines (summary e ++ more)) := by
  obtain ⟨rest, valid⟩ := exists_validLine_eq e.scopeRoot
  simp only [summary, List.cons_append, unlines, List.map_cons, String.join_cons, valid,
    String.append_assoc]
  exact callsValid_append _

/-- A configuration that does not build is not summarized. -/
theorem runVerify_of_error {cause : ConfigError}
    (failure : (selection.effective s).result = .error cause) :
    (runVerify s selection).status = 1 ∧ (runVerify s selection).stdout = "" := by
  rw [runVerify, Selection.withEffective, failure]
  exact ⟨rfl, rfl⟩

/-- A configuration that builds is called valid, and the files it copies decide the status. -/
theorem runVerify_of_builds (builds : selection.Builds s e) :
    CallsValid (runVerify s selection).stdout ∧
      (runVerify s selection).status = if e.build.copyPatterns.isOk then 0 else 1 := by
  rw [runVerify, Selection.withEffective, Selection.builds_iff.mp builds]
  cases copies : e.build.copyPatterns with
  | ok patterns =>
    simp only [copies, Report.after]
    exact ⟨callsValid_summary e _, rfl⟩
  | error cause =>
    have valid := callsValid_summary e []
    rw [List.append_nil] at valid
    simp only [copies, Report.after, Report.failedAfter]
    exact ⟨valid, rfl⟩

end Command

theorem answer_verify (s : Surroundings) (verbose : Bool) (selection : Selection) :
    (Request.run verbose (.verify selection)).answer s = Command.runVerify s selection := rfl

/-- Judging a configuration ends with 0 or 1, and with 0 exactly if the selection builds it and the
files it copies can be read. It prints the line that calls a configuration valid exactly if the
selection builds one. So the line comes with a failure exactly if the configuration is built and
the files it copies cannot be read. -/
theorem verify_verdict (s : Surroundings) (verbose : Bool) (selection : Selection) :
    let report := (Request.run verbose (.verify selection)).answer s
    (report.status = 0 ∨ report.status = 1) ∧
    (report.status = 0 ↔
      ∃ e patterns, selection.Builds s e ∧ e.build.copyPatterns = .ok patterns) ∧
    (Command.CallsValid report.stdout ↔ ∃ e, selection.Builds s e) ∧
    (report.status = 1 ∧ Command.CallsValid report.stdout ↔
      ∃ e cause, selection.Builds s e ∧ e.build.copyPatterns = .error cause) := by
  simp only [answer_verify]
  cases outcome : (selection.effective s).result with
  | error cause =>
    have none (e : Effective) : ¬ selection.Builds s e := by
      intro builds
      rw [Selection.builds_iff.mp builds] at outcome
      cases outcome
    obtain ⟨status, stdout⟩ := Command.runVerify_of_error outcome
    simp [status, stdout, none, Command.not_callsValid_empty]
  | ok e =>
    have builds := Selection.builds_iff.mpr outcome
    have only (e' : Effective) : selection.Builds s e' ↔ e' = e :=
      ⟨fun builds' => builds'.unique builds, fun same => same ▸ builds⟩
    obtain ⟨valid, status⟩ := Command.runVerify_of_builds builds
    cases copies : e.build.copyPatterns <;>
      simp [status, valid, only, copies, Except.isOk, Except.toBool]

/-- The layer of a `copy` plugin with a number in the place of its files. -/
def numberedCopies : Value :=
  .object [("plugins", .array
    [.object [("name", .string "copy"), ("options", .object [("patterns", .int 0)])]])]

/-- The files to copy are a number, and the configuration is called valid. -/
theorem verify_unreadable_copies :
    let s : Surroundings :=
      { read := fun _ => .error .notFound
        exists? := fun _ => false
        isDir := fun _ => false
        assetPath := none
        createdAt := "" }
    let assignment := "plugins=[\x7b\"name\":\"copy\",\"options\":\x7b\"patterns\":0\x7d\x7d]"
    let report := (Request.run false
      (.verify { assignments := [assignment], skipScopeCheck := true })).answer s
    report.status = 1 ∧ Command.CallsValid report.stdout := by
  have read : parseAssignment
      "plugins=[\x7b\"name\":\"copy\",\"options\":\x7b\"patterns\":0\x7d\x7d]" =
        .ok numberedCopies := by rfl
  intro s assignment report
  let selection : Selection := { assignments := [assignment], skipScopeCheck := true }
  have assigned : parseAssignments selection.assignments = .ok (some numberedCopies) := by
    have all := Except.mapM_cons_eq_ok_iff.mpr ⟨_, _, read, List.mapM_nil, rfl⟩
    rw [parseAssignments_eq all]
    rfl
  obtain ⟨e, built, plugins⟩ : ∃ e, (Effective.ofLayers s.isDir (Defaults.withAssetPath none)
      Project.empty (selection.options (some numberedCopies))).result = .ok e ∧
        e.build.plugins = [⟨"copy", [("patterns", .int 0)]⟩] := ⟨_, rfl, rfl⟩
  have copies : e.build.copyPatterns.isOk = false := by
    rw [BuildConfig.copyPatterns, BuildConfig.plugin?, plugins]
    rfl
  obtain ⟨valid, status⟩ := Command.runVerify_of_builds (.intro rfl assigned built)
  rw [copies] at status
  exact ⟨status, valid⟩

end AssetPlan
