import AssetPlan.Config.Merge
import AssetPlan.Files.Error
import AssetPlan.Rule.Error
import AssetPlan.Schema.Error
import AssetPlan.Text.Utf8
import AssetPlan.Value.Json.Writer

/-! # Why a configuration is refused -/

namespace AssetPlan.Config

open Schema

/-- The modes of a build. -/
def modes : List String := ["development", "production", "none"]

/-- The presets that can be named. -/
def presetNames : List String := ["webapp"]

/-- The key of a project that holds the environments. -/
def environmentsKey : String := "environments"

/-- The rule that a configuration breaks. -/
inductive Invalid where
  | assignmentWithoutValue (assignment : String)
  | assignmentKey (key : String)
  | projectNotTable
  | environmentsNotTable
  | environmentNotTable (name : String)
  | unknownPreset (name : String)
  | shape (cause : ReadError)
  | unknownMode (mode : String)
  | devtool (text : String)
  | blankSetting (name : String)
  | blankPluginName
  | copyPatterns (cause : ReadError)
deriving DecidableEq, Repr

def Invalid.message : Invalid → String
  | .assignmentWithoutValue assignment => s!"invalid override '{assignment}': expected KEY=VALUE"
  | .assignmentKey key => s!"invalid override key '{key}'"
  | .projectNotTable => "project configuration must be a table"
  | .environmentsNotTable => s!"'{environmentsKey}' must be a table of environment tables"
  | .environmentNotTable name => s!"environment '{name}' must be a table"
  | .unknownPreset name =>
    s!"unknown preset '{name}' (available: " ++ Text.joinTexts ", " presetNames ++ ")"
  | .shape cause => s!"invalid configuration: {cause.message}"
  | .unknownMode mode => "mode must be one of " ++ Text.joinTexts "|" modes ++ s!", got '{mode}'"
  | .devtool text => s!"devtool must be a string or false, got {text}"
  | .blankSetting name => s!"{name} must not be empty"
  | .blankPluginName => "plugin names must not be empty"
  | .copyPatterns cause => s!"invalid copy patterns: {cause.message}"

end AssetPlan.Config

namespace AssetPlan

open Config

/-- Why a configuration is refused. -/
inductive ConfigError where
  | unreadable (path : String) (cause : FileError)
  | notText (cause : Text.Utf8Error)
  | notToml
  | conflict (c : Conflict)
  | rule (e : RuleError)
  | invalid (cause : Invalid)
deriving DecidableEq, Repr

def ConfigError.message : ConfigError → String
  | .unreadable path cause => s!"IO error: {path}: {cause.message}"
  | .notText cause => s!"Parse error: Invalid UTF-8: {cause.message}"
  | .notToml => "Parse error: TOML parse error"
  | .conflict c => s!"Merge error: {c.message}"
  | .rule e => s!"Rule error: {e.message}"
  | .invalid cause => s!"Validation error: {cause.message}"

end AssetPlan
