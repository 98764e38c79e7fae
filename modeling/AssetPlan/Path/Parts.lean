import AssetPlan.Path.Normal
import AssetPlan.Text.Blank

/-! # Joining paths and taking them apart

The lexical operations on file paths: joining, the last name with its stem and extension, and the
directory that holds it. Slashes and `.` segments at the end of a path do not count, and `..` is
not a name.
-/

namespace AssetPlan.Path

open Text

/-- `part` seen from `base`: an absolute part replaces the base, and the empty part adds the slash
that marks a directory. -/
def joinChars (base part : List Char) : List Char :=
  if isAbsolute part then part
  else if base.isEmpty || base.getLast? == some '/' then base ++ part
  else base ++ '/' :: part

/-- `part` seen from `base`. -/
def join (base part : String) : String :=
  .ofList (joinChars base.toList part.toList)

/-- A reversed path without what stands for nothing at its front: slashes, and `.` segments
before a slash. A lone slash is the root directory and stays. -/
def dropIdleFront : List Char → List Char
  | ['/'] => ['/']
  | '/' :: rest => dropIdleFront rest
  | '.' :: '/' :: rest => dropIdleFront ('/' :: rest)
  | cs => cs

/-- The path without slashes and `.` segments at its end; the root directory stays. -/
def trimEnd (p : List Char) : List Char :=
  (dropIdleFront p.reverse).reverse

/-- The last segment, if it is a name. -/
def fileName? (p : List Char) : Option (List Char) :=
  match (split '/' (trimEnd p)).getLast? with
  | none => none
  | some last => if last = [] ∨ last = here ∨ last = up then none else some last

/-- The stem and the extension of a file name. A name whose only dot is its first character has no
extension; a name that ends in a dot has the empty one. -/
def stemAndExtension (name : List Char) : List Char × Option (List Char) :=
  match splitLast '.' name with
  | none => (name, none)
  | some ([], _) => (name, none)
  | some (stem, extension) => (stem, some extension)

/-- The stem of the last name, empty if there is no name. -/
def stem (p : List Char) : List Char :=
  match fileName? p with
  | none => []
  | some name => (stemAndExtension name).1

/-- The extension of the last name, without its dot. -/
def extension? (p : List Char) : Option (List Char) :=
  (fileName? p).bind fun name => (stemAndExtension name).2

/-- The directory that holds the last segment; the empty path and the root have none. -/
def parentChars? (p : List Char) : Option (List Char) :=
  let p := trimEnd p
  if p = [] ∨ p = ['/'] then none
  else some (trimEnd (p.reverse.dropWhile (· != '/')).reverse)

/-- The directory of a file that is given as a text; a bare name lies at the empty path. -/
def parent? (p : String) : Option String :=
  (parentChars? p.toList).map .ofList

/-- The path and the directories that hold it, each before the one that holds it. The fuel is the
length of the path. -/
def ancestorChars : Nat → List Char → List (List Char)
  | 0, _ => []
  | fuel + 1, p =>
    match parentChars? p with
    | none => []
    | some parent => p :: ancestorChars fuel parent

/-- What has to be a directory for the path to be one, the path first. The empty path and the root
always are and do not count. -/
def ancestors (p : String) : List String :=
  (ancestorChars p.length p.toList).map .ofList

end AssetPlan.Path
