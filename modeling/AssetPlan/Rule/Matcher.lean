import AssetPlan.Pattern.Basic
import AssetPlan.Text.Quoted

/-! # Matchers

A matcher is a condition on a whole path. It can be shown in messages; a condition given as a
function is only shown to be one.
-/

namespace AssetPlan

/-- A condition on a path. -/
inductive Matcher where
  /-- a pattern is found in the path; the pattern is held by its text and what it decides -/
  | pattern (source : String) (found : String → Bool)
  /-- a text stands in the path -/
  | contains (needle : String)
  | predicate (holds : String → Bool)
  /-- all of several conditions -/
  | all (matchers : List Matcher)

namespace Matcher

/-- The matcher of a pattern text. -/
def ofPattern (source : String) (ignoreCase : Bool) : Except Pattern.PatternError Matcher :=
  (Pattern.compile source ignoreCase).map fun p => .pattern source p.isMatch

/-- Both conditions; a condition already made of several takes in one more. -/
def both (m other : Matcher) : Matcher :=
  match m with
  | .all matchers => .all (matchers ++ [other])
  | first => .all [first, other]

mutual
def isMatch (path : String) : Matcher → Bool
  | .pattern _ found => found path
  | .contains needle => Text.occursIn needle.toList path.toList
  | .predicate holds => holds path
  | .all matchers => allMatch path matchers
def allMatch (path : String) : List Matcher → Bool
  | [] => true
  | m :: rest => isMatch path m && allMatch path rest
end

mutual
/-- The matcher as messages show it. -/
def describe : Matcher → String
  | .pattern source _ => s!"/{source}/"
  | .contains needle => s!"contains({Text.quote needle})"
  | .predicate _ => "predicate(fn)"
  | .all matchers => describeAll matchers
def describeAll : List Matcher → String
  | [] => ""
  | [m] => describe m
  | m :: rest => describe m ++ " && " ++ describeAll rest
end

end Matcher

end AssetPlan
