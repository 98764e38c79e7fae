import AssetPlan.Decimal.Layout
import AssetPlan.Value.Basic

/-! # Writing values as JSON

Two forms: `compact` on one line without blanks, and `pretty` with one entry a line and two blanks
for each level. Entries are written in the order they are held. In texts only the quote, the
backslash and the control characters below U+0020 are escaped.
-/

namespace AssetPlan

namespace Json

/-- Lower-case hexadecimal digit. -/
def hexDigit (n : Nat) : Char :=
  if n < 10 then Char.ofNat (48 + n) else Char.ofNat (87 + n)

/-- One character inside quotes. -/
def escapeChar (c : Char) : List Char :=
  if c = '"' then ['\\', '"']
  else if c = '\\' then ['\\', '\\']
  else if c = '\n' then ['\\', 'n']
  else if c = '\r' then ['\\', 'r']
  else if c = '\t' then ['\\', 't']
  else if c.toNat = 8 then ['\\', 'b']
  else if c.toNat = 12 then ['\\', 'f']
  else if c.toNat < 32 then ['\\', 'u', '0', '0', hexDigit (c.toNat / 16), hexDigit (c.toNat % 16)]
  else [c]

/-- A text in quotes. -/
def quoted (s : String) : String :=
  .ofList ('"' :: (s.toList.flatMap escapeChar ++ ['"']))

end Json

/-- The text of a number; a number without decimal form is written as `null`. -/
def Number.text : Number → String
  | .integer n => toString n
  | .real x => if x.isFinite then x.text else "null"

namespace Value

mutual
/-- JSON on one line. -/
def compact : Value → String
  | .null => "null"
  | .bool b => if b then "true" else "false"
  | .number n => n.text
  | .string s => Json.quoted s
  | .array items => "[" ++ compactItems items ++ "]"
  | .object entries => "\x7b" ++ compactEntries entries ++ "\x7d"
/-- The items with commas between them. -/
def compactItems : List Value → String
  | [] => ""
  | [v] => compact v
  | v :: rest => compact v ++ "," ++ compactItems rest
/-- The entries with commas between them. -/
def compactEntries : List (String × Value) → String
  | [] => ""
  | [(k, v)] => Json.quoted k ++ ":" ++ compact v
  | (k, v) :: rest => Json.quoted k ++ ":" ++ compact v ++ "," ++ compactEntries rest
end

/-- The start of a line at a level. -/
def indent (level : Nat) : String := .ofList ('\n' :: List.replicate (2 * level) ' ')

mutual
/-- JSON with one entry a line; `level` is the level of the value itself. -/
def prettyAt (level : Nat) : Value → String
  | .null => "null"
  | .bool b => if b then "true" else "false"
  | .number n => n.text
  | .string s => Json.quoted s
  | .array [] => "[]"
  | .array (v :: rest) => "[" ++ prettyItems (level + 1) (v :: rest) ++ indent level ++ "]"
  | .object [] => "\x7b\x7d"
  | .object (e :: rest) =>
    "\x7b" ++ prettyEntries (level + 1) (e :: rest) ++ indent level ++ "\x7d"
/-- The items, each on its line. -/
def prettyItems (level : Nat) : List Value → String
  | [] => ""
  | [v] => indent level ++ prettyAt level v
  | v :: rest => indent level ++ prettyAt level v ++ "," ++ prettyItems level rest
/-- The entries, each on its line. -/
def prettyEntries (level : Nat) : List (String × Value) → String
  | [] => ""
  | [(k, v)] => indent level ++ Json.quoted k ++ ": " ++ prettyAt level v
  | (k, v) :: rest =>
    indent level ++ Json.quoted k ++ ": " ++ prettyAt level v ++ "," ++ prettyEntries level rest
end

/-- JSON with one entry a line. -/
def pretty (v : Value) : String := prettyAt 0 v

end Value

end AssetPlan
