import AssetPlan.Command.Basic
import AssetPlan.Command.Word

/-! # Command lines

The command line names a command and gives its options and plain words. Before the command there
may be options for all commands. A file and a preset exclude each other.
-/

namespace AssetPlan.Command

def verboseSwitch : Switch := { long := "verbose", letter := some 'v' }

def helpSwitch : Switch := { long := "help", letter := some 'h', stop := some .help }

def versionSwitch : Switch := { long := "version", letter := some 'V', stop := some .version }

/-- The options that every command has. -/
def commonSwitches : List Switch := [verboseSwitch, helpSwitch]

/-- The options that select a configuration. -/
def selectionSwitches : List Switch := [
  { long := "config", letter := some 'c', operand := .path },
  { long := "preset", operand := .text },
  { long := "env", letter := some 'e', operand := .text },
  { long := "set", operand := .text, repeatable := true },
  { long := "root", operand := .path },
  { long := "skip-scope-check" }]

/-- The selection that the options make. -/
def selection (g : Given) : Except Stop Selection :=
  if g.has "config" && g.has "preset" then .error .refused
  else
    .ok
      { config := g.value? "config"
        preset := g.value? "preset"
        environment := g.value? "env"
        assignments := g.values "set"
        root := g.value? "root"
        skipScopeCheck := g.has "skip-scope-check" }

/-- How a command is written. -/
structure Form where
  name : String
  switches : List Switch
  plain : Plain
  /-- the command that the options and words make -/
  command : Given → Except Stop Command

def displayForm : Form where
  name := "show"
  switches := { long := "output", letter := some 'o', operand := .path } :: selectionSwitches
  plain := .atMost 0 .text
  command g := do .ok (.display (← selection g) (g.value? "output"))

def resolveForm : Form where
  name := "resolve"
  switches := { long := "json" } :: selectionSwitches
  plain := .any
  command g := do
    if g.words.isEmpty then .error .refused
    else .ok (.resolve (← selection g) (g.has "json") g.words)

def explainForm : Form where
  name := "explain"
  switches := { long := "human" } :: selectionSwitches
  plain := .atMost 1 .text
  command g := do
    match g.words with
    | [path] => .ok (.explain (← selection g) (g.has "human") path)
    | _ => .error .refused

def placeForm : Form where
  name := "place"
  switches := selectionSwitches
  plain := .atMost 1 .path
  command g := do
    match g.words with
    | [file] => .ok (.place (← selection g) file)
    | _ => .error .refused

def verifyForm : Form where
  name := "verify"
  switches := selectionSwitches
  plain := .atMost 0 .text
  command g := do .ok (.verify (← selection g))

def presetForm : Form where
  name := "preset"
  switches := []
  plain := .atMost 1 .text
  command g := .ok (.preset (g.words.head?.getD "webapp"))

def forms : List Form :=
  [displayForm, resolveForm, explainForm, placeForm, verifyForm, presetForm]

/-- Reads the words after the name of a command. -/
def Form.read (f : Form) (words : List String) : Except Stop (Bool × Command) := do
  let g ← readWords (commonSwitches ++ f.switches) f.plain {} none words
  let command ← f.command g
  .ok (g.has verboseSwitch.long, command)

/-- Reads the words after `help`: nothing, or the name of a command. -/
def readHelp : List String → Stop
  | [] => .help
  | [name] => if name = "help" ∨ name ∈ forms.map Form.name then .help else .refused
  | _ => .refused

/-- Reads a command line; `g` holds the options before the command. -/
def readLine (g : Given) : List String → Except Stop (Bool × Command)
  | [] => .error .refused
  | word :: rest =>
    match Word.of word.toList with
    | .separator => .error .refused
    | .plain =>
      if word = "help" then .error (readHelp rest)
      else
        match forms.find? fun f => f.name == word with
        | none => .error .refused
        | some f => do
          let (verbose, command) ← f.read rest
          .ok (verbose || g.has verboseSwitch.long, command)
    | .letters letters => do
      let (g, _) ← readLetters (versionSwitch :: commonSwitches) g letters
      readLine g rest
    | .long name value => do
      let (g, _) ← readLong (versionSwitch :: commonSwitches) g name value
      readLine g rest

end AssetPlan.Command

namespace AssetPlan

open Command

/-- What the words of a command line ask for. -/
def Request.ofWords (words : List String) : Request :=
  match readLine {} words with
  | .ok (verbose, command) => .run verbose command
  | .error .help => .help
  | .error .version => .version
  | .error .refused => .refused

end AssetPlan
