import AssetPlan.Pattern.Match
import AssetPlan.Pattern.Parser

/-! # Patterns

A pattern is compiled once and then searched in paths. Compiling refuses a pattern whose program
would be too large.
-/

namespace AssetPlan

/-- A compiled pattern with its text. -/
structure Pattern where
  source : String
  node : Pattern.Node

namespace Pattern

/-- The greatest size of a pattern's program in bytes. -/
def maxBytes : Nat := 10 * Nat.pow 2 20

/-- Compiles a pattern. -/
def compile (source : String) (ignoreCase : Bool) : Except PatternError Pattern := do
  let node ← parse ignoreCase source
  if node.programBytes > maxBytes then .error .tooLarge else .ok ⟨source, node⟩

/-- The pattern matches somewhere in the text. -/
def isMatch (p : Pattern) (text : String) : Bool :=
  p.node.occursIn text.toList

end Pattern

end AssetPlan
