import AssetPlan.Decimal.Double

/-! # Configuration values

The untyped values that configuration layers are made of. The entries of a mapping are kept in key
order by every operation here; texts are ordered by code point, which is the order of their UTF-8
bytes. `Value.Ordered` states this for a whole value.
-/

namespace AssetPlan

open Decimal

/-- A number keeps its integer or floating-point form. -/
inductive Number where
  | integer (value : Int)
  | real (value : Double)
deriving DecidableEq, Repr

/-- An untyped configuration value. -/
inductive Value where
  | null
  | bool (value : Bool)
  | number (value : Number)
  | string (text : String)
  | array (items : List Value)
  | object (entries : List (String × Value))
deriving Repr, Inhabited

/-- The entries of a mapping. -/
abbrev Entries := List (String × Value)

namespace Entries

/-- The value at a key. -/
def find? (key : String) : Entries → Option Value
  | [] => none
  | (k, v) :: rest => if k = key then some v else find? key rest

/-- Puts a value at a key, in key order; a value already there is replaced. -/
def insert (key : String) (value : Value) : Entries → Entries
  | [] => [(key, value)]
  | (k, v) :: rest =>
    if key = k then (key, value) :: rest
    else if key < k then (key, value) :: (k, v) :: rest
    else (k, v) :: insert key value rest

/-- Removes a key. -/
def erase (key : String) : Entries → Entries
  | [] => []
  | (k, v) :: rest => if k = key then rest else (k, v) :: erase key rest

/-- Entries in key order; the last value given for a key wins. -/
def ofList (entries : List (String × Value)) : Entries :=
  entries.foldl (fun result (k, v) => insert k v result) []

/-- The keys in order. -/
def keys (entries : Entries) : List String := entries.map Prod.fst

/-- The keys are strictly ascending. -/
def Ascending (entries : Entries) : Prop := entries.keys.Pairwise (· < ·)

end Entries

namespace Value

/-- An integer value. -/
def int (n : Int) : Value := .number (.integer n)

/-- The texts as a sequence. -/
def texts (items : List String) : Value := .array (items.map .string)

/-- A mapping with the entries in key order. -/
def mapping (entries : List (String × Value)) : Value := .object (Entries.ofList entries)

/-- The value at a key of a mapping. -/
def get? (key : String) : Value → Option Value
  | .object entries => Entries.find? key entries
  | _ => none

/-- The value reached by a list of keys, through mappings only. -/
def reach (v : Value) : List String → Option Value
  | [] => some v
  | key :: keys => (v.get? key).bind fun inner => inner.reach keys

/-- The text of a string value. -/
def asText? : Value → Option String
  | .string s => some s
  | _ => none

def isObject : Value → Bool
  | .object _ => true
  | _ => false

/-- Neither a mapping nor a sequence. -/
def isScalar : Value → Bool
  | .object _ | .array _ => false
  | _ => true

mutual
/-- The entries of every mapping inside, put in key order. -/
def canonical : Value → Value
  | .array items => .array (canonicalItems items)
  | .object entries => .object (canonicalEntries entries)
  | v => v
/-- Every item with its mappings in key order. -/
def canonicalItems : List Value → List Value
  | [] => []
  | v :: rest => canonical v :: canonicalItems rest
/-- The entries in key order, and every value inside as well. -/
def canonicalEntries : List (String × Value) → Entries
  | [] => []
  | (k, v) :: rest => Entries.insert k (canonical v) (canonicalEntries rest)
end

mutual
/-- Every mapping inside has strictly ascending keys. -/
def Ordered : Value → Prop
  | .array items => ItemsOrdered items
  | .object entries => Entries.Ascending entries ∧ EntriesOrdered entries
  | _ => True
/-- Every item is ordered. -/
def ItemsOrdered : List Value → Prop
  | [] => True
  | v :: rest => Ordered v ∧ ItemsOrdered rest
/-- Every entry's value is ordered. -/
def EntriesOrdered : List (String × Value) → Prop
  | [] => True
  | (_, v) :: rest => Ordered v ∧ EntriesOrdered rest
end

end Value

end AssetPlan
