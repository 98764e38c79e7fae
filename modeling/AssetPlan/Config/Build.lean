import AssetPlan.Config.Error
import AssetPlan.Output.Placement
import AssetPlan.Rule.Table

/-! # Build configurations

A merged configuration is read into typed sections, judged, and its rules are compiled. The
judgements come in a fixed order: the shape of the whole, the mode, the source map style, the output
settings, the names of plugins, and at last the rules.
-/

namespace AssetPlan

open Config Schema

/-- A named plugin with options of any form. -/
structure Plugin where
  name : String
  options : Entries := []
deriving Repr

namespace Plugin

def read : Reader Plugin :=
  record "Plugin" (Plugin.mk <$> required "name" text <*> withDefault "options" [] mapping)

def write (p : Plugin) : Value :=
  .object (writeField "name" (.string p.name) ++ writeMapping "options" p.options)

def option? (p : Plugin) (key : String) : Option Value := Entries.find? key p.options

end Plugin

/-- A file copied into the output as it is. -/
structure CopyPattern where
  source : String
  /-- the directory below the output directory -/
  target : String := ""
deriving DecidableEq, Repr

namespace CopyPattern

def read : Reader CopyPattern :=
  record "CopyPattern" (CopyPattern.mk <$> required "from" text <*> withDefault "to" "" text)

def write (c : CopyPattern) : Value :=
  .object (writeField "from" (.string c.source) ++ writeField "to" (.string c.target))

end CopyPattern

/-- How imports are resolved. -/
structure ResolveSettings where
  /-- the extensions tried, in order, for imports without one -/
  extensions : List String := []
  plugins : List Plugin := []
  symlinks : Option Bool := none
  cacheWithContext : Option Bool := none
deriving Repr

namespace ResolveSettings

def read : Reader ResolveSettings :=
  record "ResolveSettings" (ResolveSettings.mk <$> withDefault "extensions" [] (list text)
    <*> withDefault "plugins" [] (list Plugin.read)
    <*> optional "symlinks" flag
    <*> optional "cache_with_context" flag)

def write (r : ResolveSettings) : Value :=
  .object (writeField "extensions" (.texts r.extensions)
    ++ writeList "plugins" Plugin.write r.plugins
    ++ writeOptional "symlinks" .bool r.symlinks
    ++ writeOptional "cache_with_context" .bool r.cacheWithContext)

end ResolveSettings

/-- How the output is made smaller. -/
structure Optimization where
  minimizers : List Plugin := []
deriving Repr

namespace Optimization

def read : Reader Optimization :=
  record "Optimization" (Optimization.mk <$> withDefault "minimizers" [] (list Plugin.read))

def write (o : Optimization) : Value :=
  .object (writeField "minimizers" (.array (o.minimizers.map Plugin.write)))

end Optimization

/-- The sections of a configuration before they are judged. -/
structure Sections where
  mode : Option String
  devtool : Option Value
  output : OutputSettings
  rules : List Definition
  plugins : List Plugin
  resolve : ResolveSettings
  optimization : Optimization

def Sections.read : Reader Sections :=
  record "RawBuildConfig" (Sections.mk <$> optional "mode" text
    <*> optional "devtool" anything
    <*> required "output" OutputSettings.read
    <*> withDefault "rules" [] (list Definition.read)
    <*> withDefault "plugins" [] (list Plugin.read)
    <*> withDefault "resolve" {} ResolveSettings.read
    <*> withDefault "optimization" {} Optimization.read)

/-- A configuration that a bundler can be handed. -/
structure BuildConfig where
  mode : Option String
  /-- the source map style, if there are source maps -/
  devtool : Option String
  output : OutputSettings
  rules : RuleTable
  plugins : List Plugin
  resolve : ResolveSettings
  optimization : Optimization

namespace BuildConfig

/-- The mode is one of the known ones, if there is one. -/
def checkMode : Option String → Except ConfigError Unit
  | none => .ok ()
  | some mode => if mode ∈ modes then .ok () else .error (.invalid (.unknownMode mode))

/-- The source map style; `null` and `false` stand for none. -/
def readDevtool : Option Value → Except ConfigError (Option String)
  | none => .ok none
  | some .null => .ok none
  | some (.bool false) => .ok none
  | some (.string s) => .ok (some s)
  | some other => .error (.invalid (.devtool other.compact))

/-- A setting that has to be there. -/
def checkSetting (name value : String) : Except ConfigError Unit :=
  if Text.isBlankText value then .error (.invalid (.blankSetting name)) else .ok ()

/-- The settings of the output that have to be there. -/
def checkOutput (o : OutputSettings) : Except ConfigError Unit := do
  checkSetting "output.path" o.path
  checkSetting "output.filename" o.filename
  checkSetting "output.asset_filename" o.assetFilename

/-- Every plugin has a name. -/
def checkPlugins (plugins : List Plugin) : Except ConfigError Unit :=
  if plugins.any fun p => Text.isBlankText p.name then .error (.invalid .blankPluginName)
  else .ok ()

/-- Judges the sections and compiles the rules. -/
def ofSections (s : Sections) : Except ConfigError BuildConfig := do
  checkMode s.mode
  let devtool ← readDevtool s.devtool
  checkOutput s.output
  checkPlugins (s.plugins ++ s.optimization.minimizers)
  let rules ← (RuleTable.compile s.rules).mapError .rule
  .ok
    { mode := s.mode
      devtool := devtool
      output := s.output
      rules := rules
      plugins := s.plugins
      resolve := s.resolve
      optimization := s.optimization }

/-- Reads and judges a merged configuration. -/
def ofValue (v : Value) : Except ConfigError BuildConfig := do
  let sections ← (Sections.read v).mapError fun e => .invalid (.shape e)
  ofSections sections

/-- The warnings about a configuration that was accepted. -/
def warnings (b : BuildConfig) : List Event :=
  (unhashedTemplates b.output 0 b.rules).map fun (rule, template) =>
    .unhashedTemplate rule template

/-- The first plugin with a name. -/
def plugin? (b : BuildConfig) (name : String) : Option Plugin :=
  b.plugins.find? fun p => p.name == name

/-- The entry template of the pages, an option of the `html` plugin. -/
def template? (b : BuildConfig) : Option String :=
  ((b.plugin? "html").bind fun p => p.option? "template").bind Value.asText?

/-- The files copied into the output, an option of the `copy` plugin. -/
def copyPatterns (b : BuildConfig) : Except ConfigError (List CopyPattern) :=
  match (b.plugin? "copy").bind fun p => p.option? "patterns" with
  | none => .ok []
  | some v => (list CopyPattern.read v).mapError fun e => .invalid (.copyPatterns e)

def isProduction (b : BuildConfig) : Bool := b.mode == some "production"

end BuildConfig

end AssetPlan
