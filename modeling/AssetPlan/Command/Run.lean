import AssetPlan.Command.Report
import AssetPlan.Rule.Explanation

/-! # Running commands

A command that asks about a configuration builds it first; if that fails, the failure is its report.
Judging a configuration prints what it consists of before the files it copies are read.
-/

namespace AssetPlan.Command

open Text

/-- The lines of a text, each with its end. -/
def unlines (lines : List String) : String := String.join (lines.map fun line => line ++ "\n")

def runDisplay (s : Surroundings) (selection : Selection) (output : Option String) : Report :=
  selection.withEffective s fun e =>
    let json := e.json s.createdAt
    { Report.printed json with file := output.map fun path => (path, json) }

/-- The loaders of a pipeline with arrows between them. -/
def pipelineText (p : Pipeline) : String :=
  if p.isEmpty then "-" else joinTexts " -> " (Pipeline.loaders p)

def resolutionLine (path : String) : Resolution → String
  | .matched index rule =>
    let output := (rule.output.map OutputPolicy.kind).getD "-"
    s!"{path}: rule {rule.label index} [pipeline: {pipelineText rule.pipeline}] [output: {output}]"
  | .passThrough => s!"{path}: pass-through"

def resolutionValue (path : String) : Resolution → Value
  | .matched index rule =>
    .mapping [("path", .string path), ("rule", .int index),
      ("name", (rule.name.map Value.string).getD .null),
      ("pipeline", .texts (Pipeline.loaders rule.pipeline)),
      ("output", (rule.output.map fun o => o.write.canonical).getD .null)]
  | .passThrough =>
    .mapping [("path", .string path), ("rule", .null), ("pass_through", .bool true)]

/-- The resolutions of paths as a text. -/
def resolutionsText (json : Bool) (table : RuleTable) (paths : List String) : String :=
  if json then
    (Value.array (paths.map fun p => resolutionValue p (table.resolve p))).pretty ++ "\n"
  else unlines (paths.map fun p => resolutionLine p (table.resolve p))

def runResolve (s : Surroundings) (selection : Selection) (json : Bool) (paths : List String) :
    Report :=
  selection.withEffective s fun e =>
    { stdout := resolutionsText json e.build.rules paths
      events := paths.flatMap fun p => (e.build.rules.resolve p).events p }

def runExplain (s : Surroundings) (selection : Selection) (human : Bool) (path : String) :
    Report :=
  selection.withEffective s fun e =>
    let explanation := e.build.rules.explain path
    if human then { stdout := explanation.report } else .printed explanation.json

/-- Places a file with its content. -/
def placeFile (build : BuildConfig) (file : String) (content : Content.Bytes) : Report :=
  match build.rules.resolve file with
  | .passThrough =>
    (Report.printed s!"{file}: pass-through (no rule applies)").after
      (Resolution.passThrough.events file)
  | .matched index rule =>
    let report :=
      match AssetPlan.place rule index file content build.output with
      | .ok placement => Report.printed placement.write.pretty
      | .error e => Report.failed s!"Placement error: {e.message}"
    report.after (placeEvents rule file content)

def runPlace (s : Surroundings) (selection : Selection) (file : String) : Report :=
  selection.withEffective s fun e =>
    match s.read file with
    | .error cause => .failed s!"Error reading {file}: {cause.message}"
    | .ok content => placeFile e.build file content

/-- The line that calls a configuration valid. -/
def validLine : Option String → String
  | some root => s!"Configuration valid (scopes checked under {root})"
  | none => "Configuration valid (scope check skipped)"

/-- What a configuration consists of, but for the files it copies. -/
def summary (e : Effective) : List String :=
  let applied := if e.environmentApplied then "applied" else "unknown, base only"
  let environment := e.environment.map fun name => s!"  Environment: {name} ({applied})"
  let mode := e.build.mode.map fun mode => s!"  Mode: {mode}"
  let names := e.build.plugins.map Plugin.name
  let plugins := if names.isEmpty then [] else ["  Plugins: " ++ joinTexts ", " names]
  let template := e.build.template?.map fun path => s!"  Template: {path}"
  [validLine e.scopeRoot, ""]
    ++ environment.toList
    ++ mode.toList
    ++ [s!"  Output: {e.build.output.path} ({e.build.output.filename})",
      s!"  Public path: {e.build.output.publicPath}",
      s!"  Rules: {e.build.rules.length}"]
    ++ plugins
    ++ template.toList

def copyLine (c : CopyPattern) : String := s!"  Copy: {c.source} -> {c.target}"

def runVerify (s : Surroundings) (selection : Selection) : Report :=
  selection.withEffective s fun e =>
    match e.build.copyPatterns with
    | .ok patterns => { stdout := unlines (summary e ++ patterns.map copyLine) }
    | .error cause =>
      .failedAfter (unlines (summary e)) s!"Configuration error: {cause.message}"

def runPreset (name : String) : Report :=
  match Preset.find name with
  | .ok project => .printed project.document.pretty
  | .error e => .failed e.message

def helpText : String := unlines [
  "Asset rules and layered bundler configuration",
  "",
  "Usage: bundlecfg [OPTIONS] <COMMAND>",
  "",
  "Commands:",
  "  show     Print the effective (merged) configuration",
  "  resolve  Resolve source paths to their rules",
  "  explain  Explain how a path is resolved, rule by rule",
  "  place    Show where an asset would be placed in the output",
  "  verify   Build and validate the configuration and summarize it",
  "  preset   Print a built-in preset",
  "  help     Print this message or the help of the given subcommand(s)",
  "",
  "Options:",
  "  -v, --verbose  Log at debug level",
  "  -h, --help     Print help",
  "  -V, --version  Print version"]

def versionText : String := "bundlecfg 0.1.0"

def usageText : String := "Usage: bundlecfg [OPTIONS] <COMMAND>"

/-- Runs a command. -/
def run (s : Surroundings) : Command → Report
  | .display selection output => runDisplay s selection output
  | .resolve selection json paths => runResolve s selection json paths
  | .explain selection human path => runExplain s selection human path
  | .place selection file => runPlace s selection file
  | .verify selection => runVerify s selection
  | .preset name => runPreset name

end AssetPlan.Command

namespace AssetPlan

open Command

/-- Answers a request. -/
def Request.answer (s : Surroundings) : Request → Report
  | .run _ command => command.run s
  | .version => .printed versionText
  | .help => { stdout := helpText }
  | .refused => { stderr := usageText ++ "\n", status := 2 }

end AssetPlan
