import AssetPlan.Decimal.Layout
import AssetPlan.Text.Quoted
import AssetPlan.Text.Split
import AssetPlan.Value.Basic

/-! # Why a value does not fit a type

One cause a rule of typed reading, and the wording of each.
-/

namespace AssetPlan.Schema

open Decimal

/-- What was found in place of the expected. -/
inductive Found where
  | null
  | bool (value : Bool)
  | integer (value : Int)
  | real (value : Double)
  | string (text : String)
  | sequence
  | mapping
deriving DecidableEq, Repr

def Found.of : Value → Found
  | .null => .null
  | .bool b => .bool b
  | .number (.integer n) => .integer n
  | .number (.real x) => .real x
  | .string s => .string s
  | .array _ => .sequence
  | .object _ => .mapping

def Found.message : Found → String
  | .null => "null"
  | .bool b => s!"boolean `{b}`"
  | .integer n => s!"integer `{n}`"
  | .real x => s!"floating point `{x.text}`"
  | .string s => s!"string {Text.quote s}"
  | .sequence => "sequence"
  | .mapping => "map"

/-- The rule of typed reading that a value breaks. -/
inductive ReadError where
  | missingField (name : String)
  | unknownField (name : String) (declared : List String)
  | unknownVariant (name : String) (declared : List String)
  | wrongType (found : Found) (expected : String)
  | wrongValue (found : Found) (expected : String)
  | wrongLength (length : Nat) (expected : String)
deriving DecidableEq, Repr

/-- The names that would be accepted. -/
def choices (names : List String) : String :=
  match names.map fun name => s!"`{name}`" with
  | [] => "nothing"
  | [a] => a
  | [a, b] => s!"{a} or {b}"
  | all => "one of " ++ Text.joinTexts ", " all

def ReadError.message : ReadError → String
  | .missingField name => s!"missing field `{name}`"
  | .unknownField name declared => s!"unknown field `{name}`, expected {choices declared}"
  | .unknownVariant name declared => s!"unknown variant `{name}`, expected {choices declared}"
  | .wrongType found expected => s!"invalid type: {found.message}, expected {expected}"
  | .wrongValue found expected => s!"invalid value: {found.message}, expected {expected}"
  | .wrongLength length expected => s!"invalid length {length}, expected {expected}"

end AssetPlan.Schema
