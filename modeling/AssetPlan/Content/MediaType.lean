import AssetPlan.Path.Parts

/-! # Media types

The media type of a file is found by the extension of its name, in any case of ASCII letters.
-/

namespace AssetPlan.Content

/-- The extensions with a media type of their own. -/
def mediaTypes : List (String × String) := [
  ("svg", "image/svg+xml"), ("png", "image/png"), ("jpg", "image/jpeg"), ("jpeg", "image/jpeg"),
  ("gif", "image/gif"), ("webp", "image/webp"), ("ico", "image/x-icon"), ("ttf", "font/ttf"),
  ("otf", "font/otf"), ("woff", "font/woff"), ("woff2", "font/woff2"),
  ("eot", "application/vnd.ms-fontobject"), ("css", "text/css"), ("js", "text/javascript"),
  ("mjs", "text/javascript"), ("json", "application/json"), ("html", "text/html"),
  ("txt", "text/plain")]

/-- The type of content nothing is known about. -/
def unknownMediaType : String := "application/octet-stream"

/-- The media type for an extension in lower case. -/
def mediaTypeOf (extension : String) : String :=
  (mediaTypes.lookup extension).getD unknownMediaType

/-- The extension of a path in lower case, empty if there is none. -/
def lowerExtension (path : List Char) : String :=
  .ofList (((Path.extension? path).getD []).map Char.toLower)

/-- The media type of a file path. -/
def mediaType (path : String) : String :=
  mediaTypeOf (lowerExtension path.toList)

end AssetPlan.Content
