import AssetPlan.Schema.Record

/-! # Sources

Where a layer of a configuration came from.
-/

namespace AssetPlan

open Schema

/-- The kind of a source. -/
inductive Origin where
  | builtin
  | preset
  | project
  | environment
  | cli
deriving DecidableEq, Repr

namespace Origin

def name : Origin → String
  | .builtin => "builtin"
  | .preset => "preset"
  | .project => "project"
  | .environment => "environment"
  | .cli => "cli"

def variants : List (String × Origin) :=
  [("builtin", .builtin), ("preset", .preset), ("project", .project),
    ("environment", .environment), ("cli", .cli)]

def read : Reader Origin := variant variants

def write (o : Origin) : Value := .string o.name

end Origin

/-- A source with the path or name of what was read, and the digest of its bytes. -/
structure Source where
  origin : Origin
  path : Option String := none
  digest : Option String := none
deriving DecidableEq, Repr

namespace Source

def read : Reader Source :=
  openRecord "ConfigSource" (Source.mk <$> required "origin" Origin.read
    <*> omittable "path" text
    <*> omittable "digest" text)

def write (s : Source) : Value :=
  .object (writeField "origin" s.origin.write
    ++ writeOptional "path" .string s.path
    ++ writeOptional "digest" .string s.digest)

end Source

end AssetPlan
