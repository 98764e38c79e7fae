import AssetPlan.Schema.Record

/-! # Pipelines

The transform steps that a matched asset passes through, in order. Each names a loader and carries
options for it.
-/

namespace AssetPlan

open Schema

/-- One transform step. -/
structure Step where
  loader : String
  options : Entries := []
deriving Repr

namespace Step

def read : Reader Step :=
  record "TransformStep" (Step.mk <$> required "loader" text <*> withDefault "options" [] mapping)

def write (s : Step) : Value :=
  .object (writeField "loader" (.string s.loader) ++ writeMapping "options" s.options)

/-- The step with one more option; an option of the same name is replaced. -/
def withOption (s : Step) (key : String) (value : Value) : Step :=
  { s with options := Entries.insert key value s.options }

end Step

/-- Transform steps in the order in which they are applied. -/
abbrev Pipeline := List Step

namespace Pipeline

def read : Reader Pipeline := list Step.read

def write (p : Pipeline) : Value := .array (p.map Step.write)

/-- The loader names in order. -/
def loaders (p : Pipeline) : List String := p.map Step.loader

end Pipeline

end AssetPlan
