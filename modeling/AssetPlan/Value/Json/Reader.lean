import AssetPlan.Decimal.Reading
import AssetPlan.Value.Basic

/-! # Reading JSON

`Json.read?` reads a whole text as one value. A repeated key keeps its last value; integers outside
the 64-bit ranges and all numbers with a point or an exponent become doubles; a number too large
for a double, a lone surrogate escape, a raw control character in a text and nesting deeper than
127 are refused.
-/

namespace AssetPlan.Json

open Decimal

/-- A reader takes a value off the front of a text. -/
abbrev Reader (α : Type) := List Char → Option (α × List Char)

/-- The four blanks of the format. -/
def isSpace (c : Char) : Bool := c = ' ' || c = '\t' || c = '\n' || c = '\r'

def skipSpace (cs : List Char) : List Char := cs.dropWhile isSpace

/-- The value of a hexadecimal digit. -/
def hexValue? (c : Char) : Option Nat :=
  let n := c.toNat
  if 48 ≤ n ∧ n ≤ 57 then some (n - 48)
  else if 97 ≤ n ∧ n ≤ 102 then some (n - 87)
  else if 65 ≤ n ∧ n ≤ 70 then some (n - 55)
  else none

/-- Four hexadecimal digits. -/
def fourHex : Reader Nat
  | a :: b :: c :: d :: rest => do
    let a ← hexValue? a
    let b ← hexValue? b
    let c ← hexValue? c
    let d ← hexValue? d
    some (((a * 16 + b) * 16 + c) * 16 + d, rest)
  | _ => none

/-- The rest of a `\u` escape; a leading surrogate needs its partner. -/
def unicodeEscape : Reader Char := fun cs => do
  let (n, rest) ← fourHex cs
  if 0xDC00 ≤ n ∧ n ≤ 0xDFFF then none
  else if 0xD800 ≤ n ∧ n ≤ 0xDBFF then
    match rest with
    | '\\' :: 'u' :: rest => do
      let (m, rest) ← fourHex rest
      if 0xDC00 ≤ m ∧ m ≤ 0xDFFF then
        some (Char.ofNat (0x10000 + (n - 0xD800) * 0x400 + (m - 0xDC00)), rest)
      else none
    | _ => none
  else some (Char.ofNat n, rest)

/-- The character of a short escape. -/
def shortEscape? (c : Char) : Option Char :=
  match c with
  | '"' => some '"'
  | '\\' => some '\\'
  | '/' => some '/'
  | 'b' => some (Char.ofNat 8)
  | 'f' => some (Char.ofNat 12)
  | 'n' => some '\n'
  | 'r' => some '\r'
  | 't' => some '\t'
  | _ => none

/-- The characters up to the closing quote; the fuel is the length of the text. -/
def characters : Nat → Reader (List Char)
  | 0, _ => none
  | fuel + 1, cs =>
    match cs with
    | [] => none
    | '"' :: rest => some ([], rest)
    | '\\' :: 'u' :: rest => do
      let (c, rest) ← unicodeEscape rest
      let (tail, rest) ← characters fuel rest
      some (c :: tail, rest)
    | '\\' :: e :: rest => do
      let c ← shortEscape? e
      let (tail, rest) ← characters fuel rest
      some (c :: tail, rest)
    | c :: rest =>
      if c = '\\' ∨ c.toNat < 32 then none
      else do
        let (tail, rest) ← characters fuel rest
        some (c :: tail, rest)

/-- A text after its opening quote. -/
def string : Reader String := fun cs =>
  (characters (cs.length + 1) cs).map fun (text, rest) => (.ofList text, rest)

/-- The digits at the front. -/
def digits (cs : List Char) : List Nat × List Char :=
  ((cs.takeWhile Char.isDigit).map fun c => c.toNat - 48, cs.dropWhile Char.isDigit)

/-- The exponent after its letter. -/
def exponent : Reader Int := fun cs =>
  let (negative, rest) :=
    match cs with
    | '+' :: rest => (false, rest)
    | '-' :: rest => (true, rest)
    | _ => (false, cs)
  match digits rest with
  | ([], _) => none
  | (ds, rest) =>
    let n : Int := digitsValue 0 ds
    some (if negative then -n else n, rest)

/-- The optional exponent of a number. -/
def exponentPart : Reader Int
  | 'e' :: rest => exponent rest
  | 'E' :: rest => exponent rest
  | cs => some (0, cs)

/-- An integer keeps its form in the 64-bit ranges; negative zero is a double. -/
def integer? (negative : Bool) (n : Nat) : Option Number :=
  if negative then
    if 0 < n ∧ n ≤ Nat.pow 2 63 then some (.integer (-n)) else none
  else if n < Nat.pow 2 64 then some (.integer n) else none

/-- A double with a sign. -/
def signed (negative : Bool) (x : Double) : Number :=
  .real (if negative then x.negate else x)

/-- A number after its sign. -/
def unsignedNumber (negative : Bool) : Reader Number := fun cs =>
  match digits cs with
  | ([], _) => none
  | (0 :: _ :: _, _) => none
  | (whole, rest) =>
    match rest with
    | '.' :: rest =>
      match digits rest with
      | ([], _) => none
      | (fraction, rest) => do
        let (e, rest) ← exponentPart rest
        let x ← scaled whole fraction e
        some (signed negative x, rest)
    | _ =>
      if rest.head? = some 'e' ∨ rest.head? = some 'E' then do
        let (e, rest) ← exponentPart rest
        let x ← scaled whole [] e
        some (signed negative x, rest)
      else
        match integer? negative (digitsValue 0 whole) with
        | some n => some (n, rest)
        | none => (scaled whole [] 0).map fun x => (signed negative x, rest)

/-- A number. -/
def number : Reader Number
  | '-' :: rest => unsignedNumber true rest
  | cs => unsignedNumber false cs

/-- What a word stands for, if the text starts with it. -/
def word (expected : String) (value : Value) : Reader Value := fun cs =>
  if expected.toList.isPrefixOf cs then some (value, cs.drop expected.length) else none

/-- Items up to the closing character, after the first item has been announced. -/
def items {α : Type} (item : Reader α) (close : Char) : Nat → Reader (List α)
  | 0, _ => none
  | fuel + 1, cs => do
    let (first, rest) ← item (skipSpace cs)
    match skipSpace rest with
    | c :: rest =>
      if c = close then some ([first], rest)
      else if c = ',' then do
        let (tail, rest) ← items item close fuel rest
        some (first :: tail, rest)
      else none
    | [] => none

/-- A possibly empty list of items up to the closing character. -/
def itemsUntil {α : Type} (item : Reader α) (close : Char) : Reader (List α) := fun cs =>
  match skipSpace cs with
  | c :: rest => if c = close then some ([], rest) else items item close (cs.length + 1) (c :: rest)
  | [] => none

/-- A key, a colon and a value. -/
def entry (value : Reader Value) : Reader (String × Value)
  | '"' :: rest => do
    let (key, rest) ← string rest
    match skipSpace rest with
    | ':' :: rest => do
      let (v, rest) ← value (skipSpace rest)
      some ((key, v), rest)
    | _ => none
  | _ => none

/-- A value with at most `depth` levels of nesting, at the very front of the text. -/
def value : Nat → Reader Value
  | 0, cs => scalar cs
  | depth + 1, cs =>
    match cs with
    | '[' :: rest =>
      (itemsUntil (value depth) ']' rest).map fun (vs, rest) => (.array vs, rest)
    | '\x7b' :: rest =>
      (itemsUntil (entry (value depth)) '\x7d' rest).map fun (es, rest) => (Value.mapping es, rest)
    | _ => scalar cs
where
  /-- A value without items. -/
  scalar : Reader Value := fun cs =>
    match cs with
    | '"' :: rest => (string rest).map fun (s, rest) => (.string s, rest)
    | 'n' :: _ => word "null" .null cs
    | 't' :: _ => word "true" (.bool true) cs
    | 'f' :: _ => word "false" (.bool false) cs
    | _ => (number cs).map fun (n, rest) => (.number n, rest)

/-- The deepest nesting that is read. -/
def maxDepth : Nat := 127

/-- Reads a whole text as one value. -/
def read? (text : String) : Option Value := do
  let (v, rest) ← value maxDepth (skipSpace text.toList)
  if (skipSpace rest).isEmpty then some v else none

end AssetPlan.Json
