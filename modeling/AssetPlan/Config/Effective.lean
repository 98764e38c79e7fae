import AssetPlan.Config.Build
import AssetPlan.Config.Defaults
import AssetPlan.Config.Project
import AssetPlan.Config.Merge

/-! # Effective configurations

The layers of a configuration, lowest precedence first, are the built-in defaults, the common part
of the project, the selected environment and the overrides of the invocation. An effective
configuration is their merge together with the sources that took part, and the build configuration
read from it.
-/

namespace AssetPlan

open Config Schema

/-- What an invocation may ask for. -/
structure BuildOptions where
  environment : Option String := none
  /-- the layer of the invocation, merged last -/
  overrides : Option Value := none
  /-- the directory that scopes are checked below, if it is not the project's -/
  scopeRoot : Option String := none
  skipScopeCheck : Bool := false

/-- A merged configuration with its sources. -/
structure Effective where
  environment : Option String
  /-- the environment is one of the project's -/
  environmentApplied : Bool
  config : Value
  /-- the layers that took part, in order of precedence -/
  sources : List Source
  /-- the directory that scopes were checked below, if they were -/
  scopeRoot : Option String
  build : BuildConfig

namespace Effective

def schemaVersion : Nat := 1

def schemaId : String := "bundlecfg/effective_config@1"

/-- Reports how an environment was selected. -/
def environmentEvents (project : Project) : Option String → List Event
  | none => []
  | some name =>
    match project.select name with
    | some _ => [.environmentApplied name]
    | none => [.environmentUnknown name project.environmentNames]

/-- The source of the selected environment, if there is one. -/
def environmentSources (project : Project) : Option String → List Source
  | none => []
  | some name =>
    match project.select name with
    | some _ => [{ origin := .environment, path := some ("environment:" ++ name) }]
    | none => []

/-- The source of the invocation, if it has a layer. -/
def overrideSources : Option Value → List Source
  | none => []
  | some _ => [{ origin := .cli }]

/-- Checks the scopes of a configuration below the root of the invocation or of the project. -/
def checkScopes (isDir : String → Bool) (project : Project) (options : BuildOptions)
    (build : BuildConfig) : Logged ConfigError (Option String) :=
  if options.skipScopeCheck then do
    Logged.report .scopeCheckSkipped
    pure none
  else do
    let root := options.scopeRoot.getD project.scopeRoot
    let checked := build.rules.checkScopes isDir root
    Logged.reportAll checked.events
    Logged.ofExcept (checked.result.mapError .rule)
    pure (some root)

/-- Merges the layers and reads the build configuration from the result. -/
def ofLayers (isDir : String → Bool) (defaults : Defaults) (project : Project)
    (options : BuildOptions) : Logged ConfigError Effective := do
  let base ← Logged.ofExcept
    ((mergeLayers [defaults.layer, project.common]).mapError .conflict)
  Logged.reportAll (environmentEvents project options.environment)
  let overlay := options.environment.bind project.select
  let merged ← Logged.ofExcept ((mergeOptional base overlay).mapError .conflict)
  let config ← Logged.ofExcept ((mergeOptional merged options.overrides).mapError .conflict)
  let build ← Logged.ofExcept (BuildConfig.ofValue config)
  Logged.reportAll build.warnings
  let scopeRoot ← checkScopes isDir project options build
  Logged.report (.configurationBuilt build.rules.length build.plugins.length)
  pure
    { environment := options.environment
      environmentApplied := overlay.isSome
      config := config
      sources := [{ origin := .builtin }, project.source]
        ++ environmentSources project options.environment ++ overrideSources options.overrides
      scopeRoot := scopeRoot
      build := build }

/-- The written form, with the time of its making. -/
def write (createdAt : String) (e : Effective) : Value :=
  .object (writeField "schema_version" (.int schemaVersion)
    ++ writeField "schema_id" (.string schemaId)
    ++ writeField "created_at" (.string createdAt)
    ++ writeOptional "environment" .string e.environment
    ++ writeField "environment_applied" (.bool e.environmentApplied)
    ++ writeField "config" e.config
    ++ writeField "sources" (.array (e.sources.map Source.write))
    ++ writeOptional "scope_root" .string e.scopeRoot)

/-- The JSON form. -/
def json (createdAt : String) (e : Effective) : String := (e.write createdAt).pretty

/-- The value at a dotted key of the merged configuration. -/
def get? (e : Effective) (key : String) : Option Value :=
  e.config.reach ((Text.split '.' key.toList).map .ofList)

/-- The text at a dotted key. -/
def getText? (e : Effective) (key : String) : Option String :=
  (e.get? key).bind Value.asText?

end Effective

end AssetPlan
