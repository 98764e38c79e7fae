import AssetPlan.Schema.Record

/-! # Output policies

How a matched asset is placed into the output. A policy is read by its `type` field; the type is
judged before everything else, and fields that the type does not have are ignored.
-/

namespace AssetPlan

open Schema

/-- What happens to an inline asset over its limit. -/
inductive OversizePolicy where
  /-- it becomes a file -/
  | emit
  /-- it is refused -/
  | error
deriving DecidableEq, Repr

namespace OversizePolicy

def name : OversizePolicy → String
  | .emit => "emit"
  | .error => "error"

def variants : List (String × OversizePolicy) := [("emit", .emit), ("error", .error)]

def read : Reader OversizePolicy := variant variants

def write (p : OversizePolicy) : Value := .string p.name

end OversizePolicy

/-- How a matched asset is placed into the output. -/
inductive OutputPolicy where
  /-- a file of its own, named by a template or by the template of the whole output -/
  | hashedFile (filename : Option String)
  /-- part of the module that refers to it, up to a size in bytes if there is a limit -/
  | inline (limit : Option Nat) (oversize : OversizePolicy) (filename : Option String)
  /-- the reference stays as it is -/
  | resource
deriving DecidableEq, Repr

namespace OutputPolicy

/-- The name of a policy's type. -/
def kind : OutputPolicy → String
  | .hashedFile _ => "hashed-file"
  | .inline _ _ _ => "inline"
  | .resource => "resource"

/-- The types of policies. -/
inductive Kind where
  | hashedFile
  | inline
  | resource
deriving DecidableEq, Repr

def kinds : List (String × Kind) :=
  [("hashed-file", .hashedFile), ("inline", .inline), ("resource", .resource)]

/-- The type that a value names. -/
def readKind : Reader Kind
  | .string name =>
    match kinds.lookup name with
    | some k => .ok k
    | none => .error (.unknownVariant name (kinds.map Prod.fst))
  | v => .error (.wrongType (.of v) "variant identifier")

/-- Nothing, also as an empty mapping. -/
def isNothing : Value → Bool
  | .null => true
  | .object [] => true
  | _ => false

/-- The fields of a policy besides its type. -/
def fields : Kind → Record OutputPolicy
  | .hashedFile => OutputPolicy.hashedFile <$> optional "filename" text
  | .inline =>
    OutputPolicy.inline <$> optional "limit" (natural "u64")
      <*> withDefault "oversize" .emit (variantWith isNothing OversizePolicy.variants)
      <*> optional "filename" text
  | .resource =>
    ⟨[], fun _ _ => .ok (), fun _ => .ok .resource, fun _ _ items => .ok (.resource, items)⟩

/-- The field that names the type. -/
def tag : String := "type"

def read : Reader OutputPolicy
  | .object entries => do
    match Entries.find? tag entries with
    | none => .error (.missingField tag)
    | some v => do
      let record := fields (← readKind v)
      checkEntries record false (Entries.erase tag entries)
      record.ofFields fun key => Entries.find? key entries
  | .array [] => .error (.missingField tag)
  | .array (v :: items) => do
    let record := fields (← readKind v)
    let (policy, rest) ← record.ofItems "" 0 items
    if rest.isEmpty then .ok policy
    else .error (.wrongLength items.length s!"{elements record.names.length} in sequence")
  | v => .error (.wrongType (.of v) "internally tagged enum OutputPolicy")

def write : OutputPolicy → Value
  | .hashedFile filename =>
    .object (writeField tag (.string "hashed-file") ++ writeOptional "filename" .string filename)
  | .inline limit oversize filename =>
    .object (writeField tag (.string "inline")
      ++ writeOptional "limit" (fun n : Nat => .int n) limit
      ++ writeField "oversize" oversize.write
      ++ writeOptional "filename" .string filename)
  | .resource => .object (writeField tag (.string "resource"))

end OutputPolicy

end AssetPlan
