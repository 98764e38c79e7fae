import AssetPlan.Content.Base64
import AssetPlan.Content.MediaType
import AssetPlan.Journal.Event
import AssetPlan.Output.Settings
import AssetPlan.Output.Template
import AssetPlan.Path.Url
import AssetPlan.Rule.Basic

/-! # Placements

Where an asset ends up under its rule's output policy: in a file of its own named after its content,
inside the module that refers to it, or where it is. An asset path may carry a query after a
question mark, which takes no part in the file's name and type.
-/

namespace AssetPlan

open Schema Text

/-- Why an asset cannot be placed. -/
inductive PlaceError where
  | noPolicy (rule path : String)
  | overInlineLimit (path : String) (size limit : Nat)
  | unknownPlaceholder (template placeholder : String)
deriving DecidableEq, Repr

def PlaceError.message : PlaceError → String
  | .noPolicy rule path =>
    s!"rule {rule} has no output policy; {path} is handled by its pipeline only"
  | .overInlineLimit path size limit =>
    s!"{path} is {size} bytes, over the inline limit of {limit}"
  | .unknownPlaceholder template placeholder =>
    s!"unknown placeholder [{placeholder}] in template {quote template}"

/-- Where an asset ended up. -/
inductive Placement where
  /-- in a file of its own: its path below the output directory and with it, its address, and
  whether an inline limit was exceeded -/
  | emitted (source file outputPath url : String) (size : Nat) (inlineFallback : Bool)
  /-- in the module that refers to it -/
  | inlined (source dataUri : String) (size : Nat)
  /-- where it is -/
  | referenced (source reference : String)
deriving DecidableEq, Repr

namespace Placement

/-- The text that takes the place of the reference to the asset. -/
def reference : Placement → String
  | .emitted _ _ _ url _ _ => url
  | .inlined _ dataUri _ => dataUri
  | .referenced _ reference => reference

def write : Placement → Value
  | .emitted source file outputPath url size inlineFallback =>
    .object [("placement", .string "emitted"), ("source", .string source), ("file", .string file),
      ("output_path", .string outputPath), ("url", .string url), ("size", .int size),
      ("inline_fallback", .bool inlineFallback)]
  | .inlined source dataUri size =>
    .object [("placement", .string "inlined"), ("source", .string source),
      ("data_uri", .string dataUri), ("size", .int size)]
  | .referenced source reference =>
    .object [("placement", .string "referenced"), ("source", .string source),
      ("reference", .string reference)]

end Placement

/-- A path before its first question mark, and the query from there on. -/
def splitQuery (cs : List Char) : List Char × List Char :=
  (cs.takeWhile (· != '?'), cs.dropWhile (· != '?'))

/-- The names of an asset by its normal path and the digits of its digest. -/
def AssetNames.of (source hash : List Char) : AssetNames :=
  let (file, query) := splitQuery source
  { name := Path.stem file
    ext := ((Path.extension? file).map fun e => '.' :: e).getD []
    query := query
    hash := hash }

/-- Digests contents. -/
abbrev Digest := Content.Bytes → String

/-- Places an asset in a file of its own. -/
def emit (digest : Digest) (source : String) (content : Content.Bytes) (template : String)
    (output : OutputSettings) (inlineFallback : Bool) : Except PlaceError Placement :=
  match (Template.parse template.toList).render (.of source.toList (digest content).toList) with
  | .error token => .error (.unknownPlaceholder template (.ofList token))
  | .ok file =>
    .ok (.emitted source (.ofList file)
      (.ofList (Path.joinChars output.path.toList (splitQuery file).1))
      (.ofList (Path.publicChars output.publicPath.toList file))
      content.length inlineFallback)

/-- A content as an address of its own. -/
def dataUri (source : String) (content : Content.Bytes) : String :=
  let file := String.ofList (splitQuery source.toList).1
  s!"data:{Content.mediaType file};base64," ++ .ofList (Content.Base64.encode content)

/-- Places an asset under a policy; contents are digested by `digest`. -/
def placeUnder (digest : Digest) (policy : OutputPolicy) (source : String)
    (content : Content.Bytes) (output : OutputSettings) : Except PlaceError Placement :=
  match policy with
  | .hashedFile filename =>
    emit digest source content (filename.getD output.assetFilename) output false
  | .inline limit oversize filename =>
    match limit.filter (· < content.length) with
    | none => .ok (.inlined source (dataUri source content) content.length)
    | some limit =>
      match oversize with
      | .emit => emit digest source content (filename.getD output.assetFilename) output true
      | .error => .error (.overInlineLimit source content.length limit)
  | .resource => .ok (.referenced source source)

/-- Places an asset that a rule matched; contents are digested by `digest`. -/
def placeWith (digest : Digest) (rule : Rule) (index : Nat) (path : String)
    (content : Content.Bytes) (output : OutputSettings) : Except PlaceError Placement :=
  let source := Path.normalize path
  match rule.output with
  | none => .error (.noPolicy (rule.label index) source)
  | some policy => placeUnder digest policy source content output

/-- Places an asset that a rule matched. -/
def place : Rule → Nat → String → Content.Bytes → OutputSettings → Except PlaceError Placement :=
  placeWith Content.hash

/-- What placing an asset reports. -/
def placeEvents (rule : Rule) (path : String) (content : Content.Bytes) : List Event :=
  match rule.output with
  | some (.inline limit .emit _) =>
    match limit.filter (· < content.length) with
    | some limit => [.overInlineLimit (Path.normalize path) content.length limit]
    | none => []
  | _ => []

/-- The rules that name files without regard to their content, with the template of each; the first
rule stands at place `index`. -/
def unhashedTemplates (output : OutputSettings) (index : Nat) :
    List Rule → List (String × String)
  | [] => []
  | rule :: rest =>
    match rule.output with
    | some (.hashedFile filename) =>
      let template := filename.getD output.assetFilename
      if Template.mentionsHash template.toList then unhashedTemplates output (index + 1) rest
      else (rule.label index, template) :: unhashedTemplates output (index + 1) rest
    | _ => unhashedTemplates output (index + 1) rest

end AssetPlan
