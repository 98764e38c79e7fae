import AssetPlan.Schema.Error

/-! # Reading typed values

A reader takes an untyped value to a typed one or says what does not fit. Records are built from
their fields in order: `Plugin.mk <$> required … <*> withDefault …`. A record is read from a
mapping, where the entries are judged in their order and missing fields are found afterwards, or
from a sequence of its fields in their order.
-/

namespace AssetPlan.Schema

variable {α β : Type}

/-- Reads a value of a type. -/
abbrev Reader (α : Type) := Value → Except ReadError α

def text : Reader String
  | .string s => .ok s
  | v => .error (.wrongType (.of v) "a string")

def flag : Reader Bool
  | .bool b => .ok b
  | v => .error (.wrongType (.of v) "a boolean")

/-- A natural number of the named range. -/
def natural (range : String) : Reader Nat
  | .number (.integer n) =>
    if n < 0 then .error (.wrongValue (.integer n) range) else .ok n.toNat
  | v => .error (.wrongType (.of v) range)

/-- A sequence of items; the first item that does not fit is reported. -/
def list (item : Reader α) : Reader (List α)
  | .array items => items.mapM item
  | v => .error (.wrongType (.of v) "a sequence")

/-- A mapping with values of any form. -/
def mapping : Reader Entries
  | .object entries => .ok entries
  | v => .error (.wrongType (.of v) "a map")

def anything : Reader Value := .ok

/-- `null` stands for no value. -/
def nullable (item : Reader α) : Reader (Option α)
  | .null => .ok none
  | v => (item v).map some

/-- A variant without content: its name, or a mapping from its name to what `content` accepts. -/
def variantWith (content : Value → Bool) (variants : List (String × α)) : Reader α
  | .string name => find name
  | .object [(name, inner)] => do
    let a ← find name
    if content inner then .ok a else .error (.wrongType (.of inner) "unit")
  | .object _ => .error (.wrongValue .mapping "map with a single key")
  | v => .error (.wrongType (.of v) "string or map")
where
  /-- The variant with a name. -/
  find (name : String) : Except ReadError α :=
    match variants.lookup name with
    | some a => .ok a
    | none => .error (.unknownVariant name (variants.map Prod.fst))

/-- A variant without content: its name, or a mapping from its name to `null`. -/
def variant (variants : List (String × α)) : Reader α :=
  variantWith (fun v => match v with | .null => true | _ => false) variants

/-- The fields of a record, in order. -/
structure Record (α : Type) where
  names : List String
  /-- judges the value of a declared field -/
  check : String → Value → Except ReadError Unit
  /-- the record with the given fields -/
  ofFields : (String → Option Value) → Except ReadError α
  /-- the record at the front of a sequence, and the rest; the first argument says what is expected
  when the sequence is too short, the second is the number of fields before -/
  ofItems : String → Nat → List Value → Except ReadError (α × List Value)

namespace Record

/-- One field. `absent` is its value if it is missing from a mapping, `beyond` if the sequence has
ended before it. -/
def field (name : String) (read : Reader α) (absent beyond : Option α) : Record α where
  names := [name]
  check key v := if key = name then (read v).map fun _ => () else .ok ()
  ofFields get :=
    match get name, absent with
    | some v, _ => read v
    | none, some a => .ok a
    | none, none => .error (.missingField name)
  ofItems expected index items :=
    match items, beyond with
    | v :: rest, _ => (read v).map fun a => (a, rest)
    | [], some a => .ok (a, [])
    | [], none => .error (.wrongLength index expected)

instance : Functor Record where
  map f r :=
    { names := r.names
      check := r.check
      ofFields := fun get => (r.ofFields get).map f
      ofItems := fun expected index items =>
        (r.ofItems expected index items).map fun (a, rest) => (f a, rest) }

instance : Seq Record where
  seq r s :=
    let s := s ()
    { names := r.names ++ s.names
      check := fun key v =>
        if key ∈ r.names then r.check key v else s.check key v
      ofFields := fun get => do
        let f ← r.ofFields get
        let a ← s.ofFields get
        .ok (f a)
      ofItems := fun expected index items => do
        let (f, rest) ← r.ofItems expected index items
        let (a, rest) ← s.ofItems expected (index + r.names.length) rest
        .ok (f a, rest) }

end Record

/-- A field that must be there. -/
def required (name : String) (read : Reader α) : Record α :=
  .field name read none none

/-- A field with a value of its own when it is missing; `null` does not stand for it. -/
def withDefault (name : String) (default : α) (read : Reader α) : Record α :=
  .field name read (some default) (some default)

/-- A field that may be missing or `null`. -/
def optional (name : String) (read : Reader α) : Record (Option α) :=
  .field name (nullable read) (some none) (some none)

/-- A field that may be `null` or missing from a mapping, but keeps its place in a sequence. -/
def omittable (name : String) (read : Reader α) : Record (Option α) :=
  .field name (nullable read) (some none) none

/-- Judges the entries of a mapping in order. A strict record refuses undeclared fields. -/
def checkEntries (record : Record α) (strict : Bool) :
    List (String × Value) → Except ReadError Unit
  | [] => .ok ()
  | (key, v) :: rest =>
    if key ∈ record.names then do
      record.check key v
      checkEntries record strict rest
    else if strict then .error (.unknownField key record.names)
    else checkEntries record strict rest

/-- The number of fields as a message says it. -/
def elements (n : Nat) : String :=
  if n = 1 then "1 element" else s!"{n} elements"

/-- Reads a record of the named type. -/
def recordWith (strict : Bool) (name : String) (record : Record α) : Reader α
  | .object entries => do
    checkEntries record strict entries
    record.ofFields fun key => Entries.find? key entries
  | .array items => do
    let expected := s!"struct {name} with {elements record.names.length}"
    let (a, rest) ← record.ofItems expected 0 items
    if rest.isEmpty then .ok a
    else .error (.wrongLength items.length "fewer elements in array")
  | v => .error (.wrongType (.of v) s!"struct {name}")

/-- Reads a record that refuses undeclared fields. -/
def record (name : String) (fields : Record α) : Reader α := recordWith true name fields

/-- Reads a record that ignores undeclared fields. -/
def openRecord (name : String) (fields : Record α) : Reader α := recordWith false name fields

/-- A field that is always written. -/
def writeField (name : String) (v : Value) : List (String × Value) := [(name, v)]

/-- A field that is written if it has a value. -/
def writeOptional (name : String) (write : α → Value) : Option α → List (String × Value)
  | none => []
  | some a => [(name, write a)]

/-- A flag that is written if it is on. -/
def writeFlag (name : String) (on : Bool) : List (String × Value) :=
  if on then [(name, .bool true)] else []

/-- A sequence that is written if it has items. -/
def writeList (name : String) (write : α → Value) : List α → List (String × Value)
  | [] => []
  | a :: rest => [(name, .array (write a :: rest.map write))]

/-- A mapping that is written if it has entries. -/
def writeMapping (name : String) (entries : Entries) : List (String × Value) :=
  if entries.isEmpty then [] else [(name, .object entries)]

end AssetPlan.Schema
