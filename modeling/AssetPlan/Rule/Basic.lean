import AssetPlan.Path.Scope
import AssetPlan.Rule.Matcher
import AssetPlan.Rule.Pipeline
import AssetPlan.Rule.Policy

/-! # Rules

A rule applies to a path when its matcher holds and the path lies in its scope. The checks here
take the path as it is given; a table checks normal forms.
-/

namespace AssetPlan

open Schema

/-- A rule ready to be checked. -/
structure Rule where
  name : Option String := none
  matcher : Matcher
  /-- directories the rule is restricted to; none means anywhere -/
  scope : List String := []
  /-- the directories of the scope may be absent -/
  optionalScope : Bool := false
  pipeline : Pipeline := []
  /-- rules without a policy only have a pipeline -/
  output : Option OutputPolicy := none

/-- The outcome of checking one rule. -/
inductive Check where
  | matched
  | matcherMiss
  | scopeExcluded
deriving DecidableEq, Repr

namespace Check

def variants : List (String × Check) :=
  [("matched", .matched), ("matcher-miss", .matcherMiss), ("scope-excluded", .scopeExcluded)]

def name : Check → String
  | .matched => "matched"
  | .matcherMiss => "matcher-miss"
  | .scopeExcluded => "scope-excluded"

def read : Reader Check := variant variants

def write (c : Check) : Value := .string c.name

end Check

namespace Rule

/-- The path lies under one of the rule's directories. -/
def inScope (r : Rule) (path : String) : Bool :=
  r.scope.isEmpty || r.scope.any fun dir => Path.isUnder path dir

/-- Checks a path: the matcher first, then the scope. -/
def check (r : Rule) (path : String) : Check :=
  if !r.matcher.isMatch path then .matcherMiss
  else if !r.inScope path then .scopeExcluded
  else .matched

/-- How messages call a rule: by its name, or by its place in the table. -/
def label (r : Rule) (index : Nat) : String :=
  r.name.getD s!"#{index}"

end Rule

end AssetPlan
