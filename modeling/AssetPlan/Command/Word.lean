import AssetPlan.Text.Split

/-! # Words of a command line

A word is an option by its long name, a cluster of options by their letters, the separator after
which no word is an option, or plain. Options are described by switches; reading words under a list
of switches gives the options with their values and the plain words in order.
-/

namespace AssetPlan.Command

open Text

/-- The form of a word. -/
inductive Word where
  | separator
  | long (name : List Char) (value : Option (List Char))
  | letters (letters : List Char)
  | plain
deriving DecidableEq, Repr

/-- A single dash is a plain word. -/
def Word.of : List Char → Word
  | ['-', '-'] => .separator
  | '-' :: '-' :: rest =>
    match splitOnce '=' rest with
    | some (name, value) => .long name (some value)
    | none => .long rest none
  | '-' :: c :: rest => .letters (c :: rest)
  | _ => .plain

/-- Why words are not read to their end. -/
inductive Stop where
  | help
  | version
  | refused
deriving DecidableEq, Repr

/-- What an option takes. -/
inductive Operand where
  | nothing
  | text
  /-- a text that is not empty -/
  | path
deriving DecidableEq, Repr

/-- A description of an option. -/
structure Switch where
  long : String
  letter : Option Char := none
  operand : Operand := .nothing
  /-- the option may be given more than once -/
  repeatable : Bool := false
  /-- the option ends the reading -/
  stop : Option Stop := none
deriving DecidableEq, Repr

/-- How many plain words there may be. -/
inductive Plain where
  | atMost (n : Nat) (operand : Operand)
  | any
deriving DecidableEq, Repr

/-- The options and plain words that were read. -/
structure Given where
  options : List (String × String) := []
  words : List String := []
deriving DecidableEq, Repr

namespace Given

def has (g : Given) (long : String) : Bool := g.options.any (·.1 == long)

def values (g : Given) (long : String) : List String :=
  (g.options.filter (·.1 == long)).map (·.2)

def value? (g : Given) (long : String) : Option String := (g.values long).head?

end Given

/-- A value may be empty unless it is a path. -/
def Operand.admits : Operand → List Char → Bool
  | .path, [] => false
  | _, _ => true

/-- Adds an option. -/
def giveOption (g : Given) (s : Switch) (value : List Char) : Except Stop Given :=
  match s.stop with
  | some stop => .error stop
  | none =>
    if g.has s.long && !s.repeatable then .error .refused
    else if s.operand.admits value then
      .ok { g with options := g.options ++ [(s.long, .ofList value)] }
    else .error .refused

/-- Adds a plain word. -/
def giveWord (plain : Plain) (g : Given) (word : String) : Except Stop Given :=
  let given : Given := { g with words := g.words ++ [word] }
  match plain with
  | .any => .ok given
  | .atMost n operand =>
    if g.words.length < n && operand.admits word.toList then .ok given else .error .refused

/-- The value inside a cluster, after an option's letter; an equals sign may stand between. -/
def clusterValue? : List Char → Option (List Char)
  | [] => none
  | '=' :: value => some value
  | value => some value

/-- Reads a cluster of letters. An option without its value is left over. -/
def readLetters (switches : List Switch) (g : Given) :
    List Char → Except Stop (Given × Option Switch)
  | [] => .ok (g, none)
  | c :: rest =>
    match switches.find? fun s => s.letter == some c with
    | none => .error .refused
    | some s =>
      match s.operand, clusterValue? rest with
      | .nothing, _ => do
        let g ← giveOption g s []
        readLetters switches g rest
      | _, some value => do
        let g ← giveOption g s value
        .ok (g, none)
      | _, none => .ok (g, some s)

/-- Reads an option by its long name. An option without its value is left over. -/
def readLong (switches : List Switch) (g : Given) (name : List Char) (value : Option (List Char)) :
    Except Stop (Given × Option Switch) :=
  match switches.find? fun s => s.long.toList == name with
  | none => .error .refused
  | some s =>
    match s.operand, value with
    | .nothing, some _ => .error .refused
    | .nothing, none => do
      let g ← giveOption g s []
      .ok (g, none)
    | _, some value => do
      let g ← giveOption g s value
      .ok (g, none)
    | _, none => .ok (g, some s)

/-- Reads words; the value of the option left over has to be a plain word. -/
def readWords (switches : List Switch) (plain : Plain) (g : Given) :
    Option Switch → List String → Except Stop Given
  | some _, [] => .error .refused
  | none, [] => .ok g
  | some s, word :: rest =>
    match Word.of word.toList with
    | .plain => do
      let g ← giveOption g s word.toList
      readWords switches plain g none rest
    | _ => .error .refused
  | none, word :: rest =>
    match Word.of word.toList with
    | .separator => rest.foldlM (giveWord plain) g
    | .plain => do
      let g ← giveWord plain g word
      readWords switches plain g none rest
    | .letters letters => do
      let (g, left) ← readLetters switches g letters
      readWords switches plain g left rest
    | .long name value => do
      let (g, left) ← readLong switches g name value
      readWords switches plain g left rest

end AssetPlan.Command
