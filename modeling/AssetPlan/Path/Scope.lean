import AssetPlan.Text.Blank
import AssetPlan.Text.Split

/-! # Directory prefixes

A path lies under a directory prefix when the prefix ends at a segment boundary of the path. The
slashes at the end of a prefix do not count, and the empty prefix covers every path.
-/

namespace AssetPlan.Path

open Text

/-- `p` without the slashes at its end. -/
def withoutTrailingSlashes (p : List Char) : List Char :=
  dropTrailing (· == '/') p

/-- `p` is the directory `dir` or lies below it, segment by segment. -/
def isUnderChars (p dir : List Char) : Bool :=
  let dir := withoutTrailingSlashes dir
  dir.isEmpty ||
    match dropStart? dir p with
    | none => false
    | some rest => rest.isEmpty || rest.head? == some '/'

/-- The path `p` lies under the directory prefix `dir`. -/
def isUnder (p dir : String) : Bool :=
  isUnderChars p.toList dir.toList

end AssetPlan.Path
