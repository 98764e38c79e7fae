import AssetPlan.Toml.Basic

/-! # Building tables

The tables of a document grow statement by statement. A table made only on the way to another one
may still get its own header, once, and then stands last; a table made by a dotted key may be
extended by dotted keys only; a value may not be extended at all. A header whose path leads through
an array of tables means the last table of the array.
-/

namespace AssetPlan.Toml

mutual
/-- What stands at a key while a document is read. -/
inductive Item where
  | value (v : Toml)
  | table (t : Table)
  | tables (ts : List Table)
/-- A table while a document is read. -/
inductive Table where
  /-- `implicit` marks a table without a header of its own, `dotted` one made by a dotted key -/
  | mk (implicit dotted : Bool) (entries : List (String × Item))
end

namespace Table

def implicit : Table → Bool
  | mk implicit _ _ => implicit

def dotted : Table → Bool
  | mk _ dotted _ => dotted

def entries : Table → List (String × Item)
  | mk _ _ entries => entries

/-- A table with nothing in it. -/
def fresh (implicit dotted : Bool) : Table := mk implicit dotted []

/-- Puts an item at a key, at the end if the key is new. -/
def put (key : String) (item : Item) : List (String × Item) → List (String × Item)
  | [] => [(key, item)]
  | (k, i) :: rest => if k = key then (k, item) :: rest else (k, i) :: put key item rest

/-- The table with an item at a key. -/
def set (t : Table) (key : String) (item : Item) : Table :=
  mk t.implicit t.dotted (put key item t.entries)

/-- The table with an item at a key, which stands last. -/
def setLast (t : Table) (key : String) (item : Item) : Table :=
  mk t.implicit t.dotted (t.entries.filter (·.1 != key) ++ [(key, item)])

/-- Changes the table at a path below `t`; missing tables on the way are made. None if the path
leads through a value, or along a dotted key through a table with a header. -/
def at? (dotted : Bool) (change : Table → Option Table) (t : Table) : List String → Option Table
  | [] => change t
  | key :: rest =>
    match t.entries.lookup key with
    | none => do
      let inner ← at? dotted change (fresh true dotted) rest
      some (t.set key (.table inner))
    | some (.value _) => none
    | some (.table inner) =>
      if dotted && !inner.implicit then none
      else do
        let inner ← at? dotted change inner rest
        some (t.set key (.table inner))
    | some (.tables ts) =>
      match ts.reverse with
      | [] => none
      | last :: before => do
        let last ← at? dotted change last rest
        some (t.set key (.tables (before.reverse ++ [last])))

/-- Adds a value at a dotted key, whose last segment is given apart. -/
def addValue (t : Table) (path : List String) (key : String) (v : Toml) : Option Table :=
  t.at? true (fun inner =>
    if inner.dotted == path.isEmpty then none
    else if (inner.entries.lookup key).isSome then none
    else some (inner.set key (.value v))) path

/-- Gives the table at a path its header. -/
def addHeader (t : Table) (path : List String) (key : String) : Option Table :=
  t.at? false (fun parent =>
    match parent.entries.lookup key with
    | none => some (parent.set key (.table (fresh false false)))
    | some (.table inner) =>
      if inner.implicit && !inner.dotted then
        some (parent.setLast key (.table (mk false false inner.entries)))
      else none
    | some _ => none) path

/-- Adds one more table to the array of tables at a path. -/
def addToArray (t : Table) (path : List String) (key : String) : Option Table :=
  t.at? false (fun parent =>
    match parent.entries.lookup key with
    | none => some (parent.set key (.tables [fresh false false]))
    | some (.tables ts) => some (parent.set key (.tables (ts ++ [fresh false false])))
    | some _ => none) path

mutual
/-- The finished value of an item. -/
def itemValue : Item → Toml
  | .value v => v
  | .table t => .table (tableEntries t)
  | .tables ts => .array (tableValues ts)
/-- The finished values of several tables. -/
def tableValues : List Table → List Toml
  | [] => []
  | t :: rest => .table (tableEntries t) :: tableValues rest
/-- The finished entries of a table. -/
def tableEntries : Table → List (String × Toml)
  | mk _ _ entries => entryValues entries
def entryValues : List (String × Item) → List (String × Toml)
  | [] => []
  | (key, item) :: rest => (key, itemValue item) :: entryValues rest
end

/-- The finished value of a table. -/
def toToml (t : Table) : Toml := .table (tableEntries t)

end Table

/-- A line of a document that says something. -/
inductive Statement where
  | entry (path : List String) (key : String) (v : Toml)
  | header (path : List String) (key : String)
  | arrayHeader (path : List String) (key : String)

/-- A document while it is read: all tables, and the path of the one that entries go to. -/
structure Document where
  root : Table := .fresh false false
  current : List String := []

/-- Takes in one statement; none if it breaks a rule of tables. -/
def Document.add (d : Document) : Statement → Option Document
  | .entry path key v => do
    let root ← d.root.at? false (fun t => t.addValue path key v) d.current
    some { d with root := root }
  | .header path key => do
    let root ← d.root.addHeader path key
    some ⟨root, path ++ [key]⟩
  | .arrayHeader path key => do
    let root ← d.root.addToArray path key
    some ⟨root, path ++ [key]⟩

/-- The table of key and value pairs in braces. -/
def inlineTable? (pairs : List (List String × String × Toml)) : Option Toml := do
  let t ← pairs.foldlM (fun (t : Table) (path, key, v) => t.addValue path key v)
    (Table.fresh false false)
  some t.toToml

end AssetPlan.Toml
