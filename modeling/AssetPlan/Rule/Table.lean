import AssetPlan.Journal.Logged
import AssetPlan.Path.Parts
import AssetPlan.Rule.Definition

/-! # Rule tables

Rules are tried in order on the normal form of a path; the first that matches decides. A path that
no rule matches passes through. A table can also check that the directories of its scopes exist.
-/

namespace AssetPlan

/-- Rules in the order in which they are tried. -/
abbrev RuleTable := List Rule

/-- What a table says about a path. -/
inductive Resolution where
  | matched (index : Nat) (rule : Rule)
  | passThrough

namespace Resolution

def rule? : Resolution → Option Rule
  | .matched _ rule => some rule
  | .passThrough => none

def index? : Resolution → Option Nat
  | .matched index _ => some index
  | .passThrough => none

def pipeline? (r : Resolution) : Option Pipeline := r.rule?.map Rule.pipeline

def isPassThrough : Resolution → Bool
  | .matched _ _ => false
  | .passThrough => true

/-- What resolving a path reports. -/
def events (path : String) : Resolution → List Event
  | .matched _ _ => []
  | .passThrough => [.passedThrough (Path.normalize path)]

end Resolution

namespace RuleTable

/-- Compiles definitions with an engine, the first of them at place `index`. -/
def compileFrom (engine : Definition.Engine) (index : Nat) :
    List Definition → Except RuleError RuleTable
  | [] => .ok []
  | d :: rest => do
    let rule ← d.compileWith engine index
    let rules ← compileFrom engine (index + 1) rest
    .ok (rule :: rules)

/-- Compiles definitions; the first that is refused is reported. -/
def compile (defs : List Definition) : Except RuleError RuleTable :=
  compileFrom Definition.patternEngine 0 defs

/-- The first of the rules that matches, the first of them standing at place `index`. -/
def resolveFrom (path : String) (index : Nat) : List Rule → Resolution
  | [] => .passThrough
  | rule :: rest =>
    if rule.check path = .matched then .matched index rule else resolveFrom path (index + 1) rest

/-- The first rule that matches the normal form of a path. -/
def resolve (table : RuleTable) (path : String) : Resolution :=
  resolveFrom (Path.normalize path) 0 table

/-- Checks the scope directories of one rule below `root`. -/
def checkScope (isDir : String → Bool) (root : String) (rule : Rule) (index : Nat) :
    List String → Logged RuleError Unit
  | [] => pure ()
  | scope :: rest =>
    let directory := Path.join root scope
    if isDir directory then checkScope isDir root rule index rest
    else if rule.optionalScope then do
      Logged.report (.scopeAbsent (rule.label index) scope)
      checkScope isDir root rule index rest
    else Logged.ofExcept (.error (.missingScope index scope directory))

/-- Checks the scope directories of rules, the first of them at place `index`. -/
def checkScopesFrom (isDir : String → Bool) (root : String) (index : Nat) :
    List Rule → Logged RuleError Unit
  | [] => pure ()
  | rule :: rest => do
    checkScope isDir root rule index rule.scope
    checkScopesFrom isDir root (index + 1) rest

/-- Checks that the scope directories of all rules exist below `root`, where they may not be
absent. -/
def checkScopes (isDir : String → Bool) (root : String) (table : RuleTable) :
    Logged RuleError Unit :=
  checkScopesFrom isDir root 0 table

end RuleTable

end AssetPlan
