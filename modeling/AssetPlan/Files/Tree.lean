import AssetPlan.Content.Sha256
import AssetPlan.Files.Error
import AssetPlan.Path.Parts
import AssetPlan.Text.Split

/-! # File trees

A file system as a value, for following a command in a directory that is described; the program
itself asks the system. A path is walked segment by segment: everything before the last segment has
to be a directory, and `..` leads to the directory above. The working directory has a parent that
holds nothing else; both have names that no path can spell. Making and removing directories takes
several steps, and a step that fails does not undo the ones before it.
-/

namespace AssetPlan

open Content Text

/-- A file or a directory with its entries. -/
inductive FileNode where
  | file (content : Bytes)
  | directory (entries : List (String × FileNode))
deriving Repr, Inhabited

namespace FileNode

def entries : FileNode → List (String × FileNode)
  | .file _ => []
  | .directory entries => entries

/-- What a list of names leads to. -/
def find? (node : FileNode) : List String → Option FileNode
  | [] => some node
  | name :: rest => (node.entries.lookup name).bind fun inner => inner.find? rest

/-- Puts a node at a list of names; directories on the way are kept or made. -/
def put (inner : FileNode) (node : FileNode) : List String → FileNode
  | [] => inner
  | name :: rest =>
    let below := (node.entries.lookup name).getD (.directory [])
    .directory ((name, put inner below rest) :: node.entries.filter (·.1 != name))

/-- Removes what a list of names leads to. -/
def remove (node : FileNode) : List String → FileNode
  | [] => .directory []
  | [name] => .directory (node.entries.filter (·.1 != name))
  | name :: rest =>
    match node.entries.lookup name with
    | none => node
    | some below =>
      .directory ((name, remove below rest) :: node.entries.filter (·.1 != name))

def isDirectory : FileNode → Bool
  | .file _ => false
  | .directory _ => true

end FileNode

/-- A file system with a working directory. -/
structure FileTree where
  root : FileNode
deriving Repr, Inhabited

namespace FileTree

/-- The names from the root to the working directory, the last first. -/
def working : List String := ["/working", "/above"]

/-- Nothing but the working directory. -/
def empty : FileTree := ⟨.put (.directory []) (.directory []) working.reverse⟩

/-- What a place leads to; places list names, the last first. -/
def at? (t : FileTree) (place : List String) : Option FileNode := t.root.find? place.reverse

/-- The longest name of an entry in bytes. -/
def maxName : Nat := 255

/-- The longest path in bytes. -/
def maxPath : Nat := 4095

/-- What stands at a place that was walked to. Only the working directory may be missing there,
after it was removed; seen from inside it still is a directory. -/
def nodeAt (t : FileTree) (place : List String) : FileNode := (t.at? place).getD (.directory [])

/-- Takes one segment of a path. -/
def enter (t : FileTree) (place : List String) (segment : String) :
    Except FileError (List String) :=
  match t.nodeAt place with
  | .file _ => .error .notDirectory
  | .directory entries =>
    if segment = "" ∨ segment = "." then .ok place
    else if segment = ".." then .ok (place.drop 1)
    else if (t.at? place).isNone then .error .notFound
    else if segment.utf8ByteSize > maxName then .error .nameTooLong
    else if (entries.lookup segment).isNone then .error .notFound
    else .ok (segment :: place)

/-- Where a path starts, and its segments. -/
def start (path : String) : Except FileError (List String × List String) :=
  if path.toList.contains (Char.ofNat 0) then .error .nulInPath
  else if path = "" then .error .notFound
  else if path.utf8ByteSize > maxPath then .error .nameTooLong
  else
    .ok (if path.toList.head? = some '/' then [] else working,
      (split '/' path.toList).map .ofList)

/-- The place that a path leads to. -/
def walk (t : FileTree) (path : String) : Except FileError (List String) := do
  let (place, segments) ← start path
  segments.foldlM t.enter place

/-- The directory that everything before a path's last segment leads to, and that segment. Slashes
at the end do not count, and the root has no last segment. -/
def walkToLast (t : FileTree) (path : String) :
    Except FileError (List String × Option String) := do
  let (place, segments) ← start path
  let segments := (segments.reverse.dropWhile (· == "")).reverse
  let place ← segments.dropLast.foldlM t.enter place
  let place ← t.enter place ""
  .ok (place, segments.getLast?)

/-- What a path leads to. -/
def node? (t : FileTree) (path : String) : Option FileNode :=
  match t.walk path with
  | .ok place => some (t.nodeAt place)
  | .error _ => none

def exists? (t : FileTree) (path : String) : Bool := (t.node? path).isSome

def isDir (t : FileTree) (path : String) : Bool := (t.node? path).any FileNode.isDirectory

/-- The content of a file. -/
def read (t : FileTree) (path : String) : Except FileError Bytes := do
  let place ← t.walk path
  match t.nodeAt place with
  | .file content => .ok content
  | .directory _ => .error .isDirectory

/-- Puts an entry into a directory. A directory that was removed takes none. -/
def putAt (t : FileTree) (place : List String) (name : String) (node : FileNode) :
    Except FileError FileTree :=
  if (t.at? place).isNone then .error .notFound
  else .ok ⟨.put node t.root (name :: place).reverse⟩

/-- Writes a file; its directory has to be there. -/
def write (t : FileTree) (path : String) (content : Bytes) : Except FileError FileTree := do
  match ← t.walkToLast path with
  | (_, none) => .error .isDirectory
  | (place, some last) =>
    if path.toList.getLast? = some '/' ∨ last = "." ∨ last = ".." then .error .isDirectory
    else
      match t.enter place last with
      | .error .notFound => t.putAt place last (.file content)
      | .error e => .error e
      | .ok found =>
        if (t.nodeAt found).isDirectory then .error .isDirectory
        else t.putAt place last (.file content)

/-- Makes a directory in one that is there. -/
def makeEntry (t : FileTree) (path : String) : Except FileError FileTree := do
  match ← t.walkToLast path with
  | (_, none) => .error .exists
  | (place, some last) =>
    if last = "." ∨ last = ".." then .error .exists
    else
      match t.enter place last with
      | .error .notFound => t.putAt place last (.directory [])
      | .error e => .error e
      | .ok _ => .error .exists

/-- Makes a directory in one that is there, unless it is a directory already. -/
def ensureEntry (t : FileTree) (path : String) : Except FileError FileTree :=
  match t.makeEntry path with
  | .error .exists => if t.isDir path then .ok t else .error .exists
  | made => made

/-- Removes an empty directory. What is not there needs no removal. -/
def removeEntry (t : FileTree) (path : String) : Except FileError FileTree :=
  match t.walkToLast path with
  | .error .notFound => .ok t
  | .error e => .error e
  | .ok (_, none) => .error .busy
  | .ok (place, some last) =>
    if last = "." then .error .invalidArgument
    else if last = ".." then .error .notEmpty
    else
      match t.enter place last with
      | .error .notFound => .ok t
      | .error e => .error e
      | .ok found => .ok ⟨t.root.remove found.reverse⟩

/-- What several steps have made of a tree, and why they stopped, if they did. -/
structure Change where
  tree : FileTree
  failure : Option FileError
deriving Repr

/-- A last step: the tree stays as it is if the step fails. -/
def Change.last (t : FileTree) : Except FileError FileTree → Change
  | .ok changed => ⟨changed, none⟩
  | .error e => ⟨t, some e⟩

/-- Makes the first directory of a list in which each is held by the next; holders that are missing
are made before it. -/
def makeFirst (t : FileTree) : List String → Change
  | [] => ⟨t, none⟩
  | path :: holders =>
    match t.ensureEntry path with
    | .error .notFound =>
      let change := makeFirst t holders
      if change.failure.isSome then change
      else .last change.tree (change.tree.ensureEntry path)
    | result => .last t result

/-- Makes a directory with its parents. -/
def makeDirectory (t : FileTree) (path : String) : Change := t.makeFirst (Path.ancestors path)

/-- Removes a directory with its content. The content goes first, even if the path leads through it
or the directory itself has to stay. -/
def removeDirectory (t : FileTree) (path : String) : Change :=
  match t.walk path with
  | .error e => ⟨t, some e⟩
  | .ok place =>
    match t.at? place with
    | some (.file _) => ⟨t, some .notDirectory⟩
    | some (.directory _) =>
      let emptied : FileTree := ⟨.put (.directory []) t.root place.reverse⟩
      .last emptied (emptied.removeEntry path)
    | none => .last t (t.removeEntry path)

/-- Adds a file with its parents, for describing a tree. -/
def withFile (t : FileTree) (path : String) (content : Bytes) : FileTree :=
  let segments := ((split '/' path.toList).map String.ofList).filter fun s => s != "" && s != "."
  let place := segments.foldl (fun place s => if s = ".." then place.drop 1 else s :: place) working
  ⟨.put (.file content) t.root place.reverse⟩

end FileTree

end AssetPlan
