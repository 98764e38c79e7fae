import AssetPlan.Text.Quoted
import AssetPlan.Text.Split

/-! # Events

What the library reports while it works. An event is a plain value; its level, message and fields
say how it is shown.
-/

namespace AssetPlan

/-- How important an event is. -/
inductive Level where
  | debug
  | info
  | warn
deriving DecidableEq, Repr

def Level.name : Level → String
  | .debug => "DEBUG"
  | .info => "INFO"
  | .warn => "WARN"

/-- Something that happened and may be of interest. -/
inductive Event where
  /-- no rule applies to a path -/
  | passedThrough (path : String)
  /-- an asset is over the inline limit of its rule and becomes a file -/
  | overInlineLimit (path : String) (size limit : Nat)
  /-- a scope directory that may be absent is absent -/
  | scopeAbsent (rule scope : String)
  /-- the file names of a rule do not depend on the content -/
  | unhashedTemplate (rule template : String)
  | environmentApplied (name : String)
  | environmentUnknown (name : String) (available : List String)
  | scopeCheckSkipped
  | configurationBuilt (rules plugins : Nat)
  | publicPathFromSurroundings (path : String)
  | projectLoaded (path : String)
  | projectMissing (path : String)
deriving DecidableEq, Repr

namespace Event

def level : Event → Level
  | .environmentApplied _ => .info
  | .unhashedTemplate _ _ => .warn
  | .environmentUnknown _ _ => .warn
  | .projectMissing _ => .warn
  | _ => .debug

def message : Event → String
  | .passedThrough _ => "no rule applies, passing through"
  | .overInlineLimit _ _ _ => "inline limit exceeded, emitting file"
  | .scopeAbsent _ _ => "optional scope directory absent"
  | .unhashedTemplate _ _ => "hashed-file template has no [hash] or [contenthash] placeholder"
  | .environmentApplied _ => "applying environment override"
  | .environmentUnknown _ _ => "unknown environment, using base configuration"
  | .scopeCheckSkipped => "rule scope check skipped"
  | .configurationBuilt _ _ => "configuration built"
  | .publicPathFromSurroundings _ => "public path taken from ASSET_PATH"
  | .projectLoaded _ => "loaded project configuration"
  | .projectMissing path => s!"{path} not found, using built-in defaults only"

/-- Quoted texts in brackets. -/
def quotedList (texts : List String) : String :=
  "[" ++ Text.joinTexts ", " (texts.map Text.quote) ++ "]"

/-- The named details of an event as texts. -/
def fields : Event → List (String × String)
  | .passedThrough path => [("path", path)]
  | .overInlineLimit path size limit =>
    [("path", path), ("size", toString size), ("limit", toString limit)]
  | .scopeAbsent rule scope => [("rule", rule), ("scope", scope)]
  | .unhashedTemplate rule template => [("rule", rule), ("template", template)]
  | .environmentApplied name => [("environment", name)]
  | .environmentUnknown name available =>
    [("environment", name), ("available", quotedList available)]
  | .scopeCheckSkipped => []
  | .configurationBuilt rules plugins =>
    [("rules", toString rules), ("plugins", toString plugins)]
  | .publicPathFromSurroundings path => [("public_path", path)]
  | .projectLoaded path => [("path", path)]
  | .projectMissing _ => []

end Event

end AssetPlan
