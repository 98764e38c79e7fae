import AssetPlan.Config.Error
import AssetPlan.Config.Merge
import AssetPlan.Text.Blank
import AssetPlan.Value.Json.Reader

/-! # Assignments

`output.public_path=/static/` sets one value by its dotted key. The raw text is read as JSON where
it is JSON and is a text otherwise. Several assignments are merged into one layer.
-/

namespace AssetPlan.Config

open Text

/-- A value reached by the keys, alone in its mappings. -/
def nest (keys : List String) (leaf : Value) : Value :=
  keys.foldr (fun key inner => .object [(key, inner)]) leaf

/-- The keys of a dotted key, none if one of them is empty. -/
def dottedKeys? (key : List Char) : Option (List String) :=
  let segments := split '.' (trim key)
  if segments.any List.isEmpty then none else some (segments.map .ofList)

/-- The value a raw text stands for. -/
def rawValue (raw : String) : Value :=
  (Json.read? raw).getD (.string raw)

/-- One `KEY=VALUE` assignment as a layer. -/
def parseAssignment (assignment : String) : Except ConfigError Value :=
  match splitOnce '=' assignment.toList with
  | none => .error (.invalid (.assignmentWithoutValue assignment))
  | some (key, raw) =>
    match dottedKeys? key with
    | none => .error (.invalid (.assignmentKey (.ofList key)))
    | some keys => .ok (nest keys (rawValue (.ofList raw)))

/-- Merges one more assignment into a layer. -/
def assign (layer : Value) (assignment : String) : Except ConfigError Value := do
  let value ← parseAssignment assignment
  (merge layer value).mapError .conflict

/-- All assignments as one layer, none if there are none. -/
def parseAssignments (assignments : List String) : Except ConfigError (Option Value) :=
  if assignments.isEmpty then .ok none
  else (assignments.foldlM assign (.object [])).map some

end AssetPlan.Config
