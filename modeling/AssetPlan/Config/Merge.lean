import AssetPlan.Text.Split
import AssetPlan.Value.Basic

/-! # Merging layers

A layer is merged onto what lies below it key by key: mappings are merged, sequences are appended,
scalars are replaced. Values of different classes conflict; the conflict is reported with the keys
that lead to it. The overlay's keys are visited in order, so the first conflict in key order is the
one reported.
-/

namespace AssetPlan.Config

/-- The kind of a value as messages name it. -/
inductive Kind where
  | mapping
  | sequence
  | null
  | bool
  | number
  | string
deriving DecidableEq, Repr

def Kind.name : Kind → String
  | .mapping => "mapping"
  | .sequence => "sequence"
  | .null => "null"
  | .bool => "bool"
  | .number => "number"
  | .string => "string"

/-- The kind of a value. -/
def Kind.of : Value → Kind
  | .object _ => .mapping
  | .array _ => .sequence
  | .null => .null
  | .bool _ => .bool
  | .number _ => .number
  | .string _ => .string

/-- Two values that cannot be merged, and the keys that lead to them. -/
structure Conflict where
  keys : List String
  base : Kind
  overlay : Kind
deriving DecidableEq, Repr

/-- The place of a conflict in dotted form. -/
def Conflict.path (c : Conflict) : String :=
  if c.keys.isEmpty then "<root>" else Text.joinTexts "." c.keys

def Conflict.message (c : Conflict) : String :=
  s!"type conflict at '{c.path}': cannot merge {c.overlay.name} into {c.base.name}"

/-- Adds the key that leads to a conflict. -/
def Conflict.under (key : String) (c : Conflict) : Conflict :=
  { c with keys := key :: c.keys }

mutual
/-- The overlay merged onto the base. -/
def merge (base : Value) : Value → Except Conflict Value
  | .object overlay =>
    match base with
    | .object entries => (mergeEntries entries overlay).map .object
    | _ => .error ⟨[], .of base, .mapping⟩
  | .array overlay =>
    match base with
    | .array items => .ok (.array (items ++ overlay))
    | _ => .error ⟨[], .of base, .sequence⟩
  | overlay =>
    if base.isScalar then .ok overlay else .error ⟨[], .of base, .of overlay⟩
/-- The overlay's entries merged onto a mapping, one after the other. -/
def mergeEntries (entries : Entries) : List (String × Value) → Except Conflict Entries
  | [] => .ok entries
  | (key, overlay) :: rest =>
    match Entries.find? key entries with
    | none => mergeEntries (Entries.insert key overlay entries) rest
    | some below =>
      match merge below overlay with
      | .error c => .error (c.under key)
      | .ok value => mergeEntries (Entries.insert key value entries) rest
end

/-- Merges a layer that may be missing; a missing layer changes nothing. -/
def mergeOptional (base : Value) : Option Value → Except Conflict Value
  | none => .ok base
  | some overlay => merge base overlay

/-- Merges layers from lowest to highest precedence, starting with an empty mapping. -/
def mergeLayers (layers : List Value) : Except Conflict Value :=
  layers.foldlM merge (.object [])

end AssetPlan.Config
