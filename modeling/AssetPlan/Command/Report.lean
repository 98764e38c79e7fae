import AssetPlan.Command.Basic
import AssetPlan.Config.Assignment
import AssetPlan.Config.Effective
import AssetPlan.Config.Preset

/-! # Surroundings and reports

A command sees its surroundings through a few functions and leaves a report: what it prints, how
it ends, and perhaps a file to write. Both are plain values, so a command is a function from one to
the other.
-/

namespace AssetPlan

open Config

/-- What a command can see. -/
structure Surroundings where
  read : String → Except FileError Content.Bytes
  /-- something is at the path -/
  exists? : String → Bool
  isDir : String → Bool
  /-- the public path that the surroundings ask for -/
  assetPath : Option String
  /-- the time at which the command runs -/
  createdAt : String

/-- What a command leaves. -/
structure Report where
  stdout : String := ""
  stderr : String := ""
  status : Nat := 0
  events : List Event := []
  /-- the path and content of a file to write after printing -/
  file : Option (String × String) := none
deriving DecidableEq, Repr

namespace Report

/-- A text is printed, with a line end after it. -/
def printed (text : String) : Report := { stdout := text ++ "\n" }

/-- The command fails with a line that tells why. -/
def failed (reason : String) : Report := { stderr := reason ++ "\n", status := 1 }

/-- The command fails after it has printed. -/
def failedAfter (stdout reason : String) : Report := { failed reason with stdout := stdout }

/-- The report if the file cannot be written. -/
def unwritten (o : Report) (path : String) (cause : FileError) : Report :=
  { o with
    stderr := o.stderr ++ s!"Error writing {path}: {cause.message}\n"
    status := 1 }

/-- The report with events that came before. -/
def after (o : Report) (events : List Event) : Report := { o with events := events ++ o.events }

end Report

namespace Selection

/-- The file of a project unless another is named. -/
def defaultConfig : String := "bundle.toml"

/-- The project that is selected: a preset, a file that is named, or the file in the working
directory if it is there. -/
def project (s : Surroundings) (selection : Selection) : Logged ConfigError Project :=
  match selection.preset, selection.config with
  | some name, _ => Logged.ofExcept (Preset.find name)
  | none, some path => Project.ofFile path (s.read path)
  | none, none =>
    if s.exists? defaultConfig then Project.ofFile defaultConfig (s.read defaultConfig)
    else do
      Logged.report (.projectMissing defaultConfig)
      pure Project.empty

/-- The configuration that is selected. -/
def effective (s : Surroundings) (selection : Selection) : Logged ConfigError Effective := do
  let project ← selection.project s
  let overrides ← Logged.ofExcept (parseAssignments selection.assignments)
  Logged.reportAll (Defaults.events s.assetPath)
  Effective.ofLayers s.isDir (Defaults.withAssetPath s.assetPath) project
    { environment := selection.environment
      overrides := overrides
      scopeRoot := selection.root
      skipScopeCheck := selection.skipScopeCheck }

/-- Goes on with the configuration that is selected. -/
def withEffective (s : Surroundings) (selection : Selection) (k : Effective → Report) : Report :=
  let effective := selection.effective s
  match effective.result with
  | .ok e => (k e).after effective.events
  | .error e => (Report.failed s!"Configuration error: {e.message}").after effective.events

end Selection

end AssetPlan
