import AssetPlan.Path.Scope

/-! # Public addresses

Joins the public path prefix of a site and the file emitted below it.
-/

namespace AssetPlan.Path

/-- The prefix and the file with exactly one slash between them; an empty prefix adds none. -/
def publicChars (base file : List Char) : List Char :=
  if base.isEmpty then file
  else withoutTrailingSlashes base ++ '/' :: file.dropWhile (· == '/')

/-- The address of `file` below the public path `base`. -/
def publicUrl (base file : String) : String :=
  .ofList (publicChars base.toList file.toList)

end AssetPlan.Path
