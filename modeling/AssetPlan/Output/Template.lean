import AssetPlan.Text.Split
import AssetPlan.Text.Utf8

/-! # File name templates

A template is literal text with placeholders in brackets: `[name]`, `[ext]`, `[query]`, `[hash]` and
`[contenthash]`, the last two also with a number of digits as in `[hash:8]`. A bracket that is not
closed is literal text. Substituted text is not searched for placeholders again.
-/

namespace AssetPlan

open Text

/-- What is known about an asset when its file is named. -/
structure AssetNames where
  name : List Char
  /-- the extension with its dot -/
  ext : List Char
  /-- the query with its question mark -/
  query : List Char
  /-- the digits of the content's digest -/
  hash : List Char
deriving DecidableEq, Repr

/-- What a token in brackets stands for. -/
inductive Placeholder where
  | name
  | ext
  | query
  | hash (digits : Nat)
deriving DecidableEq, Repr

namespace Placeholder

/-- The digits of a digest that stand for it where no number is given. -/
def defaultDigits : Nat := 20

/-- A decimal number below `2 ^ 64`, with an optional plus sign. -/
def number? (cs : List Char) : Option Nat :=
  let digits :=
    match cs with
    | '+' :: rest => rest
    | _ => cs
  if digits.isEmpty || digits.any (!·.isDigit) then none
  else
    let n := digits.foldl (fun n c => n * 10 + (c.toNat - 48)) 0
    if n < Nat.pow 2 64 then some n else none

/-- The token is one of the two names of the digest. -/
def isHashKey (key : List Char) : Bool :=
  key == "hash".toList || key == "contenthash".toList

/-- What a token stands for, if it is known. -/
def ofToken? (token : List Char) : Option Placeholder :=
  match splitOnce ':' token with
  | some (key, digits) =>
    if isHashKey key then (number? digits).map .hash else none
  | none =>
    if token == "name".toList then some .name
    else if token == "ext".toList then some .ext
    else if token == "query".toList then some .query
    else if isHashKey token then some (.hash defaultDigits)
    else none

/-- The text that takes the place of a placeholder. The length of a digest counts in bytes. -/
def substitute (names : AssetNames) : Placeholder → List Char
  | .name => names.name
  | .ext => names.ext
  | .query => names.query
  | .hash digits => takeBytes digits names.hash

end Placeholder

theorem length_lt_of_splitOnce {sep : Char} {cs before after : List Char}
    (found : splitOnce sep cs = some (before, after)) : after.length < cs.length := by
  have same := splitOnce_append found
  simp only [← same, List.length_append, List.length_cons]
  omega

/-- A template taken apart: each token with the literal text before it, and the text after the last
token. -/
structure Template where
  pieces : List (List Char × List Char)
  tail : List Char
deriving DecidableEq, Repr

namespace Template

/-- Takes a template text apart from left to right. -/
def parse (cs : List Char) : Template :=
  match _opened : splitOnce '[' cs with
  | none => ⟨[], cs⟩
  | some (literal, after) =>
    match _closed : splitOnce ']' after with
    | none => ⟨[], cs⟩
    | some (token, rest) =>
      let t := parse rest
      ⟨(literal, token) :: t.pieces, t.tail⟩
termination_by cs.length
decreasing_by
  have := length_lt_of_splitOnce _opened
  have := length_lt_of_splitOnce _closed
  omega

/-- Puts texts in the place of tokens; the first unknown token is returned instead. -/
def renderPieces (names : AssetNames) (tail : List Char) :
    List (List Char × List Char) → Except (List Char) (List Char)
  | [] => .ok tail
  | (literal, token) :: rest =>
    match Placeholder.ofToken? token with
    | none => .error token
    | some placeholder =>
      (renderPieces names tail rest).map fun text =>
        literal ++ placeholder.substitute names ++ text

/-- The file name for an asset; an unknown token is returned instead. -/
def render (names : AssetNames) (t : Template) : Except (List Char) (List Char) :=
  renderPieces names t.tail t.pieces

/-- The start of a digest placeholder stands in the template text. -/
def mentionsHash (cs : List Char) : Bool :=
  occursIn "[hash".toList cs || occursIn "[contenthash".toList cs

end Template

end AssetPlan
