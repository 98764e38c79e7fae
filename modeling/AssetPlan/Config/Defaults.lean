import AssetPlan.Journal.Event
import AssetPlan.Schema.Record

/-! # Built-in defaults

The lowest layer: the output settings that every build starts from. The surroundings may give the
public path.
-/

namespace AssetPlan

open Schema

/-- The values of the lowest layer. -/
structure Defaults where
  outputPath : String := "dist"
  outputFilename : String := "[name].bundle.js"
  assetFilename : String := "[hash][ext][query]"
  publicPath : String := "/"
deriving DecidableEq, Repr

namespace Defaults

/-- The defaults with the public path of the surroundings, unless that is missing or empty. -/
def withAssetPath : Option String → Defaults
  | none => {}
  | some path => if path = "" then {} else { publicPath := path }

/-- What taking the public path from the surroundings reports. -/
def events : Option String → List Event
  | none => []
  | some path => if path = "" then [] else [.publicPathFromSurroundings path]

/-- The lowest layer. -/
def layer (d : Defaults) : Value :=
  .object [("output", .object [
    ("asset_filename", .string d.assetFilename), ("filename", .string d.outputFilename),
    ("path", .string d.outputPath), ("public_path", .string d.publicPath)])]

def read : Reader Defaults :=
  openRecord "BuiltinDefaults" (Defaults.mk <$> required "output_path" text
    <*> required "output_filename" text
    <*> required "asset_filename" text
    <*> required "public_path" text)

def write (d : Defaults) : Value :=
  .object (writeField "output_path" (.string d.outputPath)
    ++ writeField "output_filename" (.string d.outputFilename)
    ++ writeField "asset_filename" (.string d.assetFilename)
    ++ writeField "public_path" (.string d.publicPath))

end Defaults

end AssetPlan
