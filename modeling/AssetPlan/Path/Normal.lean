import AssetPlan.Text.Split

/-! # Normal form of a path

Both slashes separate segments. The normal form drops empty and `.` segments and lets `..` take
away the named segment before it; a `..` with nothing to take away stays. A leading slash is kept,
and does not stop leading `..` segments.
-/

namespace AssetPlan.Path

open Text

/-- A part of a path between slashes. -/
abbrev Segment := List Char

/-- The segment that names the directory above. -/
def up : Segment := ['.', '.']

/-- The segment that names the directory itself. -/
def here : Segment := ['.']

/-- Every backslash becomes a slash. -/
def slashed (p : List Char) : List Char :=
  p.map fun c => if c = '\\' then '/' else c

/-- Takes one more segment into the stack of kept segments, whose top is the last one. -/
def keep (stack : List Segment) (segment : Segment) : List Segment :=
  if segment = [] ∨ segment = here then stack
  else if segment = up then
    match stack with
    | [] => [up]
    | top :: below => if top = up then up :: top :: below else below
  else segment :: stack

/-- The segments of the normal form, in path order. -/
def normalSegments (p : List Char) : List Segment :=
  ((split '/' (slashed p)).foldl keep []).reverse

/-- A path that starts at the root directory. -/
def isAbsolute (p : List Char) : Bool :=
  p.head? == some '/'

/-- The normal form of a path given as characters. -/
def normalChars (p : List Char) : List Char :=
  (if isAbsolute (slashed p) then ['/'] else []) ++ Text.join ['/'] (normalSegments p)

/-- The normal form of a path. -/
def normalize (p : String) : String :=
  .ofList (normalChars p.toList)

end AssetPlan.Path
