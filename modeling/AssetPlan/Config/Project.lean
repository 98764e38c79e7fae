import AssetPlan.Config.Error
import AssetPlan.Config.Source
import AssetPlan.Content.Sha256
import AssetPlan.Journal.Logged
import AssetPlan.Path.Parts
import AssetPlan.Text.Utf8
import AssetPlan.Toml.Parser

/-! # Projects

A project document holds the configuration common to all environments and, under one key, a layer
for each environment. `Project.ofValue` takes a document apart; `Project.document` puts it together
again.
-/

namespace AssetPlan

open Config

/-- A configuration common to all environments and a layer for each of them. -/
structure Project where
  common : Value
  environments : Entries
  source : Source
  /-- the directory that scopes are relative to, if it is not the working directory -/
  root : Option String := none

namespace Project

/-- The first environment that is no mapping. -/
def firstBadEnvironment? : List (String × Value) → Option String
  | [] => none
  | (name, layer) :: rest => if layer.isObject then firstBadEnvironment? rest else some name

/-- Takes a document apart. -/
def ofValue (document : Value) (source : Source) : Except ConfigError Project :=
  match document with
  | .object entries =>
    let common := Value.object (Entries.erase environmentsKey entries)
    match Entries.find? environmentsKey entries with
    | none => .ok ⟨common, [], source, none⟩
    | some (.object environments) =>
      match firstBadEnvironment? environments with
      | some name => .error (.invalid (.environmentNotTable name))
      | none => .ok ⟨common, environments, source, none⟩
    | some _ => .error (.invalid .environmentsNotTable)
  | _ => .error (.invalid .projectNotTable)

/-- The document of a project, with its environments. -/
def document (p : Project) : Value :=
  match p.common with
  | .object entries => .object (Entries.insert environmentsKey (.object p.environments) entries)
  | other => other

/-- A project without configuration. -/
def empty : Project := ⟨.object [], [], { origin := .project }, none⟩

/-- Reads a document's text. -/
def ofToml (text : String) (source : Source) : Except ConfigError Project :=
  match Toml.parse? text with
  | none => .error .notToml
  | some t => ofValue t.toValue source

/-- The directory of a file, for a file given by its path. -/
def directoryOf (path : String) : String :=
  match Path.parent? path with
  | some dir => if dir = "" then "." else dir
  | none => "."

/-- Reads a document's file, given by its path and content. -/
def ofFile (path : String) (content : Except FileError Content.Bytes) :
    Logged ConfigError Project := do
  let bytes ← Logged.ofExcept (content.mapError (ConfigError.unreadable path))
  let text ← Logged.ofExcept ((Text.decode bytes).mapError ConfigError.notText)
  Logged.report (.projectLoaded path)
  let source : Source :=
    { origin := .project, path := some path, digest := some (Content.hash bytes) }
  let project ← Logged.ofExcept (ofToml text source)
  pure { project with root := some (directoryOf path) }

/-- The layer of an environment. -/
def select (p : Project) (environment : String) : Option Value :=
  Entries.find? environment p.environments

def environmentNames (p : Project) : List String := Entries.keys p.environments

/-- The directory that scopes are checked below. -/
def scopeRoot (p : Project) : String := p.root.getD "."

end Project

end AssetPlan
