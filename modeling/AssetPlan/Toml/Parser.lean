import AssetPlan.Toml.Marked
import AssetPlan.Toml.Table

/-! # Reading documents

`Toml.parse?` reads a whole TOML document as one table, or refuses it. The position and wording of
a syntax error are not part of the result.
-/

namespace AssetPlan.Toml

/-- The rest of a comment's line, with its end. -/
def skipComment (cs : List Char) : Option (List Char) :=
  let rest := cs.dropWhile isPlain
  if rest.isEmpty then some [] else lineEnd? rest

/-- What follows a statement on its line, up to the next line. -/
def skipLine (cs : List Char) : Option (List Char) :=
  match skipBlanks cs with
  | [] => some []
  | '#' :: rest => skipComment rest
  | cs => lineEnd? cs

/-- A character of a key without quotes. -/
def isKeyChar (c : Char) : Bool := c.isAlphanum || c == '-' || c == '_'

/-- One segment of a key. -/
def simpleKey : Reader String := fun cs =>
  match cs with
  | '"' :: rest => (basicText (rest.length + 1) rest).map fun (k, rest) => (.ofList k, rest)
  | '\'' :: rest => (literalText rest).map fun (k, rest) => (.ofList k, rest)
  | _ =>
    let k := cs.takeWhile isKeyChar
    if k.isEmpty then none else some (.ofList k, cs.dropWhile isKeyChar)

/-- A dotted key with the blanks around it: the segments before the last, and the last. The fuel is
the length of the text. -/
def dottedKey : Nat → Reader (List String × String)
  | 0, _ => none
  | fuel + 1, cs => do
    let (key, rest) ← simpleKey (skipBlanks cs)
    match skipBlanks rest with
    | '.' :: rest => do
      let ((path, last), rest) ← dottedKey fuel rest
      some ((key :: path, last), rest)
    | rest => some (([], key), rest)

/-- The greatest number of segments of a key, and of levels of nesting in a value. -/
def maxDepth : Nat := 79

/-- A dotted key of a bounded number of segments. -/
def key : Reader (List String × String) := fun cs => do
  let ((path, last), rest) ← dottedKey (cs.length + 1) cs
  if path.length < maxDepth then some ((path, last), rest) else none

/-- Drops blanks, comments and ends of lines. The fuel is the length of the text. -/
def skipLayout : Nat → List Char → Option (List Char)
  | 0, cs => some cs
  | fuel + 1, cs =>
    match skipBlanks cs with
    | '#' :: rest => do
      let rest ← lineEnd? (rest.dropWhile isPlain)
      skipLayout fuel rest
    | cs =>
      match lineEnd? cs with
      | some rest => skipLayout fuel rest
      | none => some cs

/-- The items of an array up to its closing bracket. The fuel is the length of the text. -/
def arrayItems (value : Reader Toml) : Nat → Reader (List Toml)
  | 0, _ => none
  | fuel + 1, cs => do
    let cs ← skipLayout cs.length cs
    match cs with
    | ']' :: rest => some ([], rest)
    | cs => do
      let (v, rest) ← value cs
      match ← skipLayout rest.length rest with
      | ']' :: rest => some ([v], rest)
      | ',' :: rest => do
        let (vs, rest) ← arrayItems value fuel rest
        some (v :: vs, rest)
      | _ => none

/-- The pairs of an inline table up to its closing brace, at least one. The fuel is the length of
the text. -/
def inlinePairs (value : Reader Toml) : Nat → Reader (List (List String × String × Toml))
  | 0, _ => none
  | fuel + 1, cs => do
    let ((path, last), rest) ← key cs
    let rest ← expect '=' rest
    let (v, rest) ← value (skipBlanks rest)
    match skipBlanks rest with
    | '\x7d' :: rest => some ([(path, last, v)], rest)
    | ',' :: rest => do
      let (pairs, rest) ← inlinePairs value fuel rest
      some ((path, last, v) :: pairs, rest)
    | _ => none

/-- A value without items. -/
def scalar : Reader Toml := fun cs =>
  match cs with
  | '"' :: _ => (readString cs).map fun (s, rest) => (.string s, rest)
  | '\'' :: _ => (readString cs).map fun (s, rest) => (.string s, rest)
  | 't' :: 'r' :: 'u' :: 'e' :: rest => some (.boolean true, rest)
  | 'f' :: 'a' :: 'l' :: 's' :: 'e' :: rest => some (.boolean false, rest)
  | _ =>
    (dateTime cs).map (fun (m, rest) => (.moment m, rest)) <|> readFloat cs <|> readInteger cs

/-- A value with at most `depth` levels of nesting. -/
def value : Nat → Reader Toml
  | 0, cs => scalar cs
  | depth + 1, cs =>
    match cs with
    | '[' :: rest =>
      (arrayItems (value depth) (rest.length + 1) rest).map fun (vs, rest) => (.array vs, rest)
    | '\x7b' :: rest =>
      match skipBlanks rest with
      | '\x7d' :: rest => some (.table [], rest)
      | rest => do
        let (pairs, rest) ← inlinePairs (value depth) (rest.length + 1) rest
        let t ← inlineTable? pairs
        some (t, rest)
    | _ => scalar cs

/-- A statement at the start of a line, up to the next line. -/
def statement : Reader Statement := fun cs =>
  match cs with
  | '[' :: '[' :: rest => do
    let ((path, last), rest) ← key rest
    let rest ← expect ']' rest
    let rest ← expect ']' rest
    let rest ← skipLine rest
    some (.arrayHeader path last, rest)
  | '[' :: rest => do
    let ((path, last), rest) ← key rest
    let rest ← expect ']' rest
    let rest ← skipLine rest
    some (.header path last, rest)
  | _ => do
    let ((path, last), rest) ← key cs
    let rest ← expect '=' rest
    let (v, rest) ← value maxDepth (skipBlanks rest)
    let rest ← skipLine rest
    some (.entry path last v, rest)

/-- Takes in the statements of a text. The fuel is the length of the text. -/
def statements : Nat → Document → List Char → Option Document
  | 0, _, _ => none
  | fuel + 1, d, cs =>
    match skipBlanks cs with
    | [] => some d
    | '#' :: rest => do
      let rest ← skipComment rest
      statements fuel d rest
    | cs =>
      match lineEnd? cs with
      | some rest => statements fuel d rest
      | none => do
        let (s, rest) ← statement cs
        let d ← d.add s
        statements fuel d rest

/-- Reads a whole document; a byte order mark at its start does not count. -/
def parse? (text : String) : Option Toml := do
  let cs := text.toList
  let cs := if cs.head? = some (Char.ofNat 0xFEFF) then cs.drop 1 else cs
  let d ← statements (cs.length + 1) {} cs
  d.root.toToml.readMarks?

end AssetPlan.Toml
