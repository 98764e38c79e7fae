import AssetPlan.Pattern.Error
import AssetPlan.Text.Quoted

/-! # Why rules are refused -/

namespace AssetPlan

/-- The cause, with the place of the rule in its table. -/
inductive RuleError where
  | missingMatcher (index : Nat)
  | invalidPattern (index : Nat) (pattern : String) (cause : Pattern.PatternError)
  | emptyScope (index : Nat)
  | emptyLoader (index step : Nat)
  | missingScope (index : Nat) (scope directory : String)
deriving DecidableEq, Repr

def RuleError.message : RuleError → String
  | .missingMatcher index => s!"rule {index}: no matcher (set `test` and/or `contains`)"
  | .invalidPattern index pattern cause =>
    s!"rule {index}: invalid pattern {Text.quote pattern}: {cause.message}"
  | .emptyScope index => s!"rule {index}: empty scope entry"
  | .emptyLoader index step => s!"rule {index}: pipeline step {step} has an empty loader name"
  | .missingScope index scope directory =>
    s!"rule {index}: scope {Text.quote scope} is not a directory ({directory})"

end AssetPlan
