import AssetPlan.Path.Normal
import AssetPlan.Rule.Basic
import AssetPlan.Rule.Error
import AssetPlan.Text.Blank

/-! # Rule definitions

A rule as it is written in a configuration, and compiling it. Compiling judges the pattern, the
presence of a matcher, the scope entries and the loader names in this order, and reports the first
that is refused.
-/

namespace AssetPlan

open Schema

/-- A rule as it is written in a configuration. -/
structure Definition where
  name : Option String := none
  /-- a pattern searched in the path -/
  test : Option String := none
  ignoreCase : Bool := false
  /-- a text that must also stand in the path -/
  contains : Option String := none
  scope : List String := []
  optionalScope : Bool := false
  pipeline : Pipeline := []
  output : Option OutputPolicy := none
deriving Repr

namespace Definition

def read : Reader Definition :=
  record "RuleDef" (Definition.mk <$> optional "name" text
    <*> optional "test" text
    <*> withDefault "case_insensitive" false flag
    <*> optional "contains" text
    <*> withDefault "scope" [] (list text)
    <*> withDefault "optional_scope" false flag
    <*> withDefault "pipeline" [] (list Step.read)
    <*> optional "output" OutputPolicy.read)

def write (d : Definition) : Value :=
  .object (writeOptional "name" .string d.name
    ++ writeOptional "test" .string d.test
    ++ writeFlag "case_insensitive" d.ignoreCase
    ++ writeOptional "contains" .string d.contains
    ++ writeList "scope" .string d.scope
    ++ writeFlag "optional_scope" d.optionalScope
    ++ writeList "pipeline" Step.write d.pipeline
    ++ writeOptional "output" OutputPolicy.write d.output)

/-- Decides what a pattern text finds. -/
abbrev Engine := String → Bool → Except Pattern.PatternError (String → Bool)

/-- The engine of this library. -/
def patternEngine : Engine := fun source ignoreCase =>
  (Pattern.compile source ignoreCase).map Pattern.isMatch

/-- The matcher of a definition. -/
def compileMatcher (engine : Engine) (d : Definition) (index : Nat) : Except RuleError Matcher :=
  match d.test with
  | none =>
    match d.contains with
    | none => .error (.missingMatcher index)
    | some needle => .ok (.contains needle)
  | some source =>
    match engine source d.ignoreCase with
    | .error cause => .error (.invalidPattern index source cause)
    | .ok found =>
      match d.contains with
      | none => .ok (.pattern source found)
      | some needle => .ok ((Matcher.pattern source found).both (.contains needle))

/-- The directory that a scope entry stands for; none if it stands for no directory below. -/
def scopeDirectory? (entry : String) : Option String :=
  let dir := Path.withoutTrailingSlashes (Path.normalChars entry.toList)
  if dir.isEmpty then none else some (.ofList dir)

/-- The directories of a scope. -/
def compileScope (index : Nat) (scope : List String) : Except RuleError (List String) :=
  scope.mapM fun entry =>
    match scopeDirectory? entry with
    | none => .error (.emptyScope index)
    | some dir => .ok dir

/-- The place of the first step without a loader name, counted from `step`. -/
def blankStep? (step : Nat) : List Step → Option Nat
  | [] => none
  | s :: rest => if Text.isBlankText s.loader then some step else blankStep? (step + 1) rest

/-- Compiles a definition at a place of its table. -/
def compileWith (engine : Engine) (d : Definition) (index : Nat) : Except RuleError Rule := do
  let matcher ← d.compileMatcher engine index
  let scope ← compileScope index d.scope
  match blankStep? 0 d.pipeline with
  | some step => .error (.emptyLoader index step)
  | none =>
    .ok
      { name := d.name
        matcher := matcher
        scope := scope
        optionalScope := d.optionalScope
        pipeline := d.pipeline
        output := d.output }

end Definition

end AssetPlan
