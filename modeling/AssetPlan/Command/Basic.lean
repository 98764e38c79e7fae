/-! # Commands

What the command line can be asked for: a command with the selection of a configuration it works
on, the version, or help.
-/

namespace AssetPlan

/-- The configuration a command works on. -/
structure Selection where
  /-- the file of a project -/
  config : Option String := none
  /-- the preset that takes the place of a file -/
  preset : Option String := none
  environment : Option String := none
  /-- `KEY=VALUE` overrides -/
  assignments : List String := []
  /-- the directory that scopes are checked below, if it is not the project's -/
  root : Option String := none
  skipScopeCheck : Bool := false
deriving DecidableEq, Repr

/-- A command. -/
inductive Command where
  /-- print the merged configuration, and write it to a file if one is named -/
  | display (selection : Selection) (output : Option String)
  /-- tell the rule of each path -/
  | resolve (selection : Selection) (json : Bool) (paths : List String)
  /-- tell how the rule of a path was found -/
  | explain (selection : Selection) (human : Bool) (path : String)
  /-- tell where an asset ends up -/
  | place (selection : Selection) (file : String)
  /-- judge a configuration and summarize it -/
  | verify (selection : Selection)
  /-- print a preset -/
  | preset (name : String)
deriving DecidableEq, Repr

/-- What a command line asks for. -/
inductive Request where
  | run (verbose : Bool) (command : Command)
  | version
  | help
  /-- nothing that can be understood -/
  | refused
deriving DecidableEq, Repr

end AssetPlan
