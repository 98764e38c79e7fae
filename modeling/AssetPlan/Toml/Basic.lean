import AssetPlan.Decimal.Double
import AssetPlan.Text.Split
import AssetPlan.Value.Basic

/-! # TOML values

What a TOML document denotes, and its conversion to configuration values. The conversion keeps
tables, arrays, texts, flags and integers as they are; a float that is infinite or undefined
becomes `null`, and a date-time becomes its text.
-/

namespace AssetPlan

open Decimal

/-- A date of the calendar. -/
structure Toml.Date where
  year : Nat
  month : Nat
  day : Nat
deriving DecidableEq, Repr

/-- A time of day. -/
structure Toml.Time where
  hour : Nat
  minute : Nat
  second : Nat
  nanosecond : Nat
deriving DecidableEq, Repr

/-- The distance from universal time. -/
inductive Toml.Offset where
  | universal
  | minutes (n : Int)
deriving DecidableEq, Repr

/-- A date, a time, or both, and then perhaps an offset. -/
structure Toml.Moment where
  date : Option Toml.Date
  time : Option Toml.Time
  offset : Option Toml.Offset
deriving DecidableEq, Repr

/-- A TOML value. -/
inductive Toml where
  | string (text : String)
  | integer (value : Int)
  | float (value : Double)
  | boolean (value : Bool)
  | moment (value : Toml.Moment)
  | array (items : List Toml)
  | table (entries : List (String × Toml))
deriving Repr, Inhabited

namespace Toml

/-- A number filled up with zeros to a width. -/
def zeroPadded (width n : Nat) : String :=
  let digits := toString n
  .ofList (List.replicate (width - digits.length) '0') ++ digits

def Date.text (d : Date) : String :=
  zeroPadded 4 d.year ++ "-" ++ zeroPadded 2 d.month ++ "-" ++ zeroPadded 2 d.day

/-- Fractions of a second are written without zeros at their end. -/
def Time.text (t : Time) : String :=
  let fraction := ((zeroPadded 9 t.nanosecond).toList.reverse.dropWhile (· == '0')).reverse
  zeroPadded 2 t.hour ++ ":" ++ zeroPadded 2 t.minute ++ ":" ++ zeroPadded 2 t.second
    ++ (if t.nanosecond = 0 then "" else "." ++ .ofList fraction)

def Offset.text : Offset → String
  | .universal => "Z"
  | .minutes n =>
    (if n < 0 then "-" else "+") ++ zeroPadded 2 (n.natAbs / 60) ++ ":"
      ++ zeroPadded 2 (n.natAbs % 60)

/-- The date and the time with `T` between them, and then the offset. -/
def Moment.text (m : Moment) : String :=
  (m.date.map Date.text).getD ""
    ++ (if m.date.isSome && m.time.isSome then "T" else "")
    ++ (m.time.map Time.text).getD ""
    ++ (m.offset.map Offset.text).getD ""

mutual
/-- The configuration value of a TOML value. -/
def toValue : Toml → Value
  | .string s => .string s
  | .integer n => .int n
  | .float x => if x.isFinite then .number (.real x) else .null
  | .boolean b => .bool b
  | .moment m => .string m.text
  | .array items => .array (toValues items)
  | .table entries => .object (toEntries entries)
def toValues : List Toml → List Value
  | [] => []
  | t :: rest => toValue t :: toValues rest
def toEntries : List (String × Toml) → Entries
  | [] => []
  | (key, t) :: rest => Entries.insert key (toValue t) (toEntries rest)
end

end Toml

end AssetPlan
