import AssetPlan.Config.Project

/-! # Presets

Projects that need no file. `webapp` is a single-page application: scripts through a loader, images
and fonts with hashed names, background images inside their modules, and a production environment
with minimizers and extracted styles. Scopes inside installed packages may be absent.
-/

namespace AssetPlan.Preset

open Value

/-- The directory of background images, which are always inlined. -/
def backgroundImages : String := "bgimages"

def fontDirectories : List String := [
  "node_modules/patternfly/dist/fonts",
  "node_modules/@patternfly/react-core/dist/styles/assets/fonts",
  "node_modules/@patternfly/react-core/dist/styles/assets/pficon",
  "node_modules/@patternfly/patternfly/assets/fonts",
  "node_modules/@patternfly/patternfly/assets/pficon"]

def imageDirectories : List String := [
  "src",
  "node_modules/patternfly",
  "node_modules/@patternfly/patternfly/assets/images",
  "node_modules/@patternfly/react-styles/css/assets/images",
  "node_modules/@patternfly/react-core/dist/styles/assets/images",
  "node_modules/@patternfly/react-core/node_modules/@patternfly/react-styles/css/assets/images",
  "node_modules/@patternfly/react-table/node_modules/@patternfly/react-styles/css/assets/images",
  "node_modules/@patternfly/react-inline-edit-extension/node_modules/@patternfly/react-styles/css/assets/images"]

def styleDirectories : List String := [
  "src",
  "node_modules/patternfly",
  "node_modules/@patternfly/patternfly",
  "node_modules/@patternfly/react-styles/css",
  "node_modules/@patternfly/react-core/dist/styles",
  "node_modules/@patternfly/react-core/node_modules/@patternfly/react-styles/css"]

/-- A value with a name, and options if it has some. -/
def named (name : String) (options : List (String × Value)) : Value :=
  mapping (("name", .string name)
    :: (if options.isEmpty then [] else [("options", mapping options)]))

def webappRules : Value := .array [
  mapping [("name", .string "scripts"), ("test", .string "\\.(tsx|ts|jsx)?$"),
    ("pipeline", .array [mapping [("loader", .string "ts-loader"),
      ("options", mapping [("transpileOnly", .bool true),
        ("experimentalWatchApi", .bool true)])]])],
  mapping [("name", .string "images"), ("test", .string "\\.(svg|jpg|jpeg|png|gif)$"),
    ("case_insensitive", .bool true), ("scope", .texts ["src/assets"]),
    ("output", mapping [("type", .string "hashed-file"),
      ("filename", .string "assets/[hash][ext][query]")])],
  mapping [("name", .string "fonts"), ("test", .string "\\.(svg|ttf|eot|woff|woff2)$"),
    ("scope", .texts fontDirectories), ("optional_scope", .bool true),
    ("output", mapping [("type", .string "hashed-file")])],
  mapping [("name", .string "background-filter"), ("test", .string "\\.svg$"),
    ("contains", .string "background-filter.svg"),
    ("output", mapping [("type", .string "inline"), ("limit", .int 5000),
      ("filename", .string "svgs/[name][ext]")])],
  mapping [("name", .string "bgimages"), ("test", .string "\\.svg$"),
    ("contains", .string backgroundImages), ("output", mapping [("type", .string "inline")])],
  mapping [("name", .string "inline-images"), ("test", .string "\\.(jpg|jpeg|png|gif)$"),
    ("case_insensitive", .bool true), ("scope", .texts imageDirectories),
    ("optional_scope", .bool true),
    ("output", mapping [("type", .string "inline"), ("limit", .int 5000),
      ("filename", .string "images/[name][ext]")])]]

def webappCommon : Value := mapping [
  ("rules", webappRules),
  ("output", mapping [("path", .string "dist"), ("filename", .string "[name].bundle.js")]),
  ("plugins", .array [
    named "html" [("template", .string "src/index.html")],
    named "dotenv" [("systemvars", .bool true), ("silent", .bool true)],
    named "copy" [("patterns", .array [
      mapping [("from", .string "./src/favicon.png"), ("to", .string "images")]])]]),
  ("resolve", mapping [
    ("extensions", .texts [".js", ".ts", ".tsx", ".jsx"]),
    ("plugins", .array [named "tsconfig-paths" [("configFile", .string "./tsconfig.json")]]),
    ("symlinks", .bool false), ("cache_with_context", .bool false)])]

def webappProduction : Value := mapping [
  ("mode", .string "production"),
  ("devtool", .string "source-map"),
  ("optimization", mapping [("minimizers", .array [
    named "terser" [],
    named "css-minimizer" [("minimizerOptions", mapping [("preset", .array [
      .string "default", mapping [("mergeLonghand", .bool false)]])])]])]),
  ("plugins", .array [named "mini-css-extract" [
    ("filename", .string "[name].css"), ("chunkFilename", .string "[name].bundle.css")]]),
  ("rules", .array [mapping [("name", .string "styles"), ("test", .string "\\.css$"),
    ("scope", .texts styleDirectories), ("optional_scope", .bool true),
    ("pipeline", .array [mapping [("loader", .string "mini-css-extract")],
      mapping [("loader", .string "css-loader")]])]])]

/-- The preset with a name. -/
def find (name : String) : Except ConfigError Project :=
  if name = "webapp" then
    .ok
      { common := webappCommon
        environments := [("production", webappProduction)]
        source := { origin := .preset, path := some ("preset:" ++ name) } }
  else .error (.invalid (.unknownPreset name))

end AssetPlan.Preset
