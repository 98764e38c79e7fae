import AssetPlan.Schema.Record

/-! # Output settings

Where the output goes and how its files are named.
-/

namespace AssetPlan

open Schema

/-- The `output` section of a configuration. -/
structure OutputSettings where
  /-- the output directory -/
  path : String
  /-- the file name template of entry chunks -/
  filename : String
  /-- the file name template of assets that have none of their own -/
  assetFilename : String
  /-- what stands before the file in the address of an asset -/
  publicPath : String
  chunkFilename : Option String := none
deriving DecidableEq, Repr

namespace OutputSettings

def read : Reader OutputSettings :=
  record "OutputSettings" (OutputSettings.mk <$> required "path" text
    <*> required "filename" text
    <*> required "asset_filename" text
    <*> required "public_path" text
    <*> optional "chunk_filename" text)

def write (o : OutputSettings) : Value :=
  .object (writeField "path" (.string o.path)
    ++ writeField "filename" (.string o.filename)
    ++ writeField "asset_filename" (.string o.assetFilename)
    ++ writeField "public_path" (.string o.publicPath)
    ++ writeOptional "chunk_filename" .string o.chunkFilename)

end OutputSettings

end AssetPlan
