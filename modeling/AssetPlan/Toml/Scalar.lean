import AssetPlan.Decimal.Reading
import AssetPlan.Toml.Basic

/-! # Reading scalars

Readers for the texts, numbers and date-times of a document. Each takes a value off the front of
the text and returns the rest, or none if the text does not start with one.
-/

namespace AssetPlan.Toml

open Decimal

/-- A reader takes a value off the front of a text. -/
abbrev Reader (α : Type) := List Char → Option (α × List Char)

/-- A blank inside a line. -/
def isBlank (c : Char) : Bool := c = ' ' || c = '\t'

def skipBlanks (cs : List Char) : List Char := cs.dropWhile isBlank

/-- A character that may stand in texts and comments as it is: a tab, or no control character. -/
def isPlain (c : Char) : Bool := c = '\t' || (32 ≤ c.toNat && c.toNat != 127)

/-- The rest of the text after an end of line. -/
def lineEnd? : List Char → Option (List Char)
  | '\n' :: rest => some rest
  | '\r' :: '\n' :: rest => some rest
  | _ => none

/-- The value of a hexadecimal digit. -/
def hexDigit? (c : Char) : Option Nat :=
  if '0' ≤ c ∧ c ≤ '9' then some (c.toNat - 48)
  else if 'a' ≤ c ∧ c ≤ 'f' then some (c.toNat - 87)
  else if 'A' ≤ c ∧ c ≤ 'F' then some (c.toNat - 55)
  else none

/-- A fixed number of hexadecimal digits read after the value `n`. -/
def hexDigits : Nat → Nat → Reader Nat
  | 0, n, cs => some (n, cs)
  | _ + 1, _, [] => none
  | count + 1, n, c :: rest => do
    let d ← hexDigit? c
    hexDigits count (n * 16 + d) rest

/-- The character with a code, unless the code is a surrogate or too large. -/
def charOfCode? (n : Nat) : Option Char :=
  if n < 0xD800 ∨ (0xDFFF < n ∧ n ≤ 0x10FFFF) then some (Char.ofNat n) else none

/-- An escape sequence after its backslash. -/
def escape : Reader Char
  | 'b' :: rest => some (Char.ofNat 8, rest)
  | 't' :: rest => some ('\t', rest)
  | 'n' :: rest => some ('\n', rest)
  | 'f' :: rest => some (Char.ofNat 12, rest)
  | 'r' :: rest => some ('\r', rest)
  | '"' :: rest => some ('"', rest)
  | '\\' :: rest => some ('\\', rest)
  | 'u' :: rest => do
    let (n, rest) ← hexDigits 4 0 rest
    (charOfCode? n).map fun c => (c, rest)
  | 'U' :: rest => do
    let (n, rest) ← hexDigits 8 0 rest
    (charOfCode? n).map fun c => (c, rest)
  | _ => none

/-- A basic text after its opening quote. The fuel is the length of the text. -/
def basicText : Nat → Reader (List Char)
  | 0, _ => none
  | fuel + 1, cs =>
    match cs with
    | [] => none
    | '"' :: rest => some ([], rest)
    | '\\' :: rest => do
      let (c, rest) ← escape rest
      let (tail, rest) ← basicText fuel rest
      some (c :: tail, rest)
    | c :: rest =>
      if isPlain c then do
        let (tail, rest) ← basicText fuel rest
        some (c :: tail, rest)
      else none

/-- A literal text after its opening quote. -/
def literalText : Reader (List Char)
  | [] => none
  | c :: rest =>
    if c = '\'' then some ([], rest)
    else if isPlain c then do
      let (tail, rest) ← literalText rest
      some (c :: tail, rest)
    else none

/-- The closing quotes of a text over several lines, if there are three or more in a row. Up to two
before the last three belong to the text. -/
def closing? (quote : Char) (cs : List Char) : Option (List Char × List Char) :=
  let run := (cs.takeWhile (· == quote)).length
  if run < 3 then none
  else
    let inside := min (run - 3) 2
    some (List.replicate inside quote, cs.drop (inside + 3))

/-- The rest of the text after an escaped end of line and the blank lines behind it. -/
def escapedLineEnd? (cs : List Char) : Option (List Char) :=
  (lineEnd? (skipBlanks cs)).map fun rest => skipLines (rest.length + 1) rest
where
  /-- Drops blanks and ends of lines. -/
  skipLines : Nat → List Char → List Char
    | 0, cs => cs
    | fuel + 1, cs =>
      match lineEnd? (skipBlanks cs) with
      | some rest => skipLines fuel rest
      | none => skipBlanks cs

/-- A basic text over several lines after its opening quotes. The fuel is the length of the text. -/
def basicLines : Nat → Reader (List Char)
  | 0, _ => none
  | fuel + 1, cs =>
    match closing? '"' cs with
    | some end? => some end?
    | none =>
      match lineEnd? cs with
      | some rest => do
        let (tail, rest) ← basicLines fuel rest
        some ('\n' :: tail, rest)
      | none =>
        match cs with
        | [] => none
        | '\\' :: rest =>
          match escapedLineEnd? rest with
          | some rest => basicLines fuel rest
          | none => do
            let (c, rest) ← escape rest
            let (tail, rest) ← basicLines fuel rest
            some (c :: tail, rest)
        | c :: rest =>
          if isPlain c then do
            let (tail, rest) ← basicLines fuel rest
            some (c :: tail, rest)
          else none

/-- A literal text over several lines after its opening quotes. The fuel is the length of the
text. -/
def literalLines : Nat → Reader (List Char)
  | 0, _ => none
  | fuel + 1, cs =>
    match closing? '\'' cs with
    | some end? => some end?
    | none =>
      match lineEnd? cs with
      | some rest => do
        let (tail, rest) ← literalLines fuel rest
        some ('\n' :: tail, rest)
      | none =>
        match cs with
        | [] => none
        | c :: rest =>
          if isPlain c then do
            let (tail, rest) ← literalLines fuel rest
            some (c :: tail, rest)
          else none

/-- An end of line right after the opening quotes does not count. -/
def afterOpening (cs : List Char) : List Char := (lineEnd? cs).getD cs

/-- A text of any of the four forms. -/
def readString : Reader String := fun cs =>
  (match cs with
  | '"' :: '"' :: '"' :: rest => basicLines (rest.length + 1) (afterOpening rest)
  | '"' :: rest => basicText (rest.length + 1) rest
  | '\'' :: '\'' :: '\'' :: rest => literalLines (rest.length + 1) (afterOpening rest)
  | '\'' :: rest => literalText rest
  | _ => none).map fun (text, rest) => (.ofList text, rest)

/-- Digits of a base after the first, which may be parted by single underscores. -/
def moreDigits (digit? : Char → Option Nat) : Reader (List Nat)
  | [] => some ([], [])
  | '_' :: c :: rest => do
    let d ← digit? c
    let (ds, rest) ← moreDigits digit? rest
    some (d :: ds, rest)
  | '_' :: [] => none
  | c :: rest =>
    match digit? c with
    | none => some ([], c :: rest)
    | some d => do
      let (ds, rest) ← moreDigits digit? rest
      some (d :: ds, rest)

/-- One digit of a base or more. -/
def digits (digit? : Char → Option Nat) : Reader (List Nat)
  | [] => none
  | c :: rest => do
    let d ← digit? c
    let (ds, rest) ← moreDigits digit? rest
    some (d :: ds, rest)

def decimalDigit? (c : Char) : Option Nat :=
  if c.isDigit then some (c.toNat - 48) else none

/-- A digit below a base of at most ten. -/
def digitBelow? (base : Nat) (c : Char) : Option Nat := (decimalDigit? c).filter (· < base)

/-- A sign, and whether it is a minus. -/
def sign (cs : List Char) : Bool × List Char :=
  match cs with
  | '+' :: rest => (false, rest)
  | '-' :: rest => (true, rest)
  | _ => (false, cs)

/-- Decimal digits without needless zeros in front. -/
def wholeDigits : Reader (List Nat)
  | '0' :: rest => some ([0], rest)
  | cs => digits decimalDigit? cs

/-- The value of digits in a base. -/
def inBase (base : Nat) (ds : List Nat) : Nat := ds.foldl (fun n d => n * base + d) 0

/-- An integer of 64 bits. -/
def bounded (n : Int) : Option Toml :=
  if -9223372036854775808 ≤ n ∧ n ≤ 9223372036854775807 then some (.integer n) else none

/-- An integer, in base two, eight or sixteen if it says so. -/
def readInteger : Reader Toml := fun cs =>
  match cs with
  | '0' :: 'x' :: rest => do
    let (ds, rest) ← digits hexDigit? rest
    (bounded (inBase 16 ds)).map fun t => (t, rest)
  | '0' :: 'o' :: rest => do
    let (ds, rest) ← digits (digitBelow? 8) rest
    (bounded (inBase 8 ds)).map fun t => (t, rest)
  | '0' :: 'b' :: rest => do
    let (ds, rest) ← digits (digitBelow? 2) rest
    (bounded (inBase 2 ds)).map fun t => (t, rest)
  | _ => do
    let (negative, rest) := sign cs
    let (ds, rest) ← wholeDigits rest
    let n : Int := inBase 10 ds
    (bounded (if negative then -n else n)).map fun t => (t, rest)

/-- The exponent of a float, if it has one. -/
def exponent? : List Char → Option (Option Int × List Char)
  | c :: rest =>
    if c = 'e' ∨ c = 'E' then do
      let (negative, rest) := sign rest
      let (ds, rest) ← digits decimalDigit? rest
      let n : Int := inBase 10 ds
      some (some (if negative then -n else n), rest)
    else some (none, c :: rest)
  | [] => some (none, [])

/-- The float of a decimal; positive numbers that are too large are refused. -/
def floatOf (negative : Bool) (whole fraction : List Nat) (exponent : Int) : Option Toml :=
  let n := digitsValue (digitsValue 0 whole) fraction
  let x := nearest n (exponent - fraction.length)
  if negative then some (.float x.negate)
  else if x.isFinite then some (.float x)
  else none

/-- A float with a fraction or an exponent, or one of the named ones. -/
def readFloat : Reader Toml := fun cs =>
  let (negative, rest) := sign cs
  match rest with
  | 'i' :: 'n' :: 'f' :: rest =>
    some (.float (if negative then Double.infinity.negate else .infinity), rest)
  | 'n' :: 'a' :: 'n' :: rest => some (.float .undefined, rest)
  | _ => do
    let (whole, rest) ← wholeDigits rest
    match rest with
    | '.' :: rest =>
      let (fraction, rest) ← digits decimalDigit? rest
      let (e, rest) ← exponent? rest
      (floatOf negative whole fraction (e.getD 0)).map fun t => (t, rest)
    | _ =>
      let (e, rest) ← exponent? rest
      let e ← e
      (floatOf negative whole [] e).map fun t => (t, rest)

/-- A number of exactly `width` decimal digits between two bounds. -/
def fixed (width low high : Nat) : Reader Nat := fun cs => do
  let ds ← (cs.take width).mapM decimalDigit?
  let n := inBase 10 ds
  if ds.length = width ∧ low ≤ n ∧ n ≤ high then some (n, cs.drop width) else none

/-- One given character. -/
def expect (c : Char) : List Char → Option (List Char)
  | d :: rest => if d = c then some rest else none
  | [] => none

def isLeapYear (year : Nat) : Bool := year % 4 == 0 && (year % 100 != 0 || year % 400 == 0)

/-- The number of days of a month. -/
def daysOf (year month : Nat) : Nat :=
  if month = 2 then (if isLeapYear year then 29 else 28)
  else if month = 4 ∨ month = 6 ∨ month = 9 ∨ month = 11 then 30
  else 31

def date : Reader Date := fun cs => do
  let (year, rest) ← fixed 4 0 9999 cs
  let rest ← expect '-' rest
  let (month, rest) ← fixed 2 1 12 rest
  let rest ← expect '-' rest
  let (day, rest) ← fixed 2 1 (daysOf year month) rest
  some (⟨year, month, day⟩, rest)

/-- Fractions of a second, of which nine digits count. -/
def nanoseconds : Reader Nat
  | '.' :: rest => do
    let ds := rest.takeWhile Char.isDigit
    if ds.isEmpty then none
    else
      let counted := (ds.take 9).map fun c => c.toNat - 48
      some (inBase 10 counted * Nat.pow 10 (9 - counted.length), rest.dropWhile Char.isDigit)
  | cs => some (0, cs)

/-- A time of day; a minute may have a sixty-first second. -/
def time : Reader Time := fun cs => do
  let (hour, rest) ← fixed 2 0 23 cs
  let rest ← expect ':' rest
  let (minute, rest) ← fixed 2 0 59 rest
  let rest ← expect ':' rest
  let (second, rest) ← fixed 2 0 60 rest
  let (n, rest) ← nanoseconds rest
  some (⟨hour, minute, second, n⟩, rest)

/-- The offset after a time, if there is one. -/
def offset? : List Char → Option (Option Offset × List Char)
  | c :: rest =>
    if c = 'Z' ∨ c = 'z' then some (some .universal, rest)
    else if c = '+' ∨ c = '-' then do
      let (hours, rest) ← fixed 2 0 23 rest
      let rest ← expect ':' rest
      let (minutes, rest) ← fixed 2 0 59 rest
      let n : Int := hours * 60 + minutes
      some (some (.minutes (if c = '-' then -n else n)), rest)
    else some (none, c :: rest)
  | [] => some (none, [])

/-- A date with a time and perhaps an offset, a date, or a time. -/
def dateTime : Reader Moment := fun cs =>
  match date cs with
  | none => (time cs).map fun (t, rest) => (⟨none, some t, none⟩, rest)
  | some (d, rest) =>
    let alone : Moment × List Char := (⟨some d, none, none⟩, rest)
    match rest with
    | c :: after =>
      if c = 'T' ∨ c = 't' ∨ c = ' ' then
        match time after with
        | none => some alone
        | some (t, after) => (offset? after).map fun (o, after) => (⟨some d, some t, o⟩, after)
      else some alone
    | [] => some alone

end AssetPlan.Toml
