import AssetPlan.Toml.Scalar

/-! # Tables that are date-times

A table whose first key is `momentKey` stands for a date-time: the text at that key spells it, as a
document would, and what else the table holds does not count.
-/

namespace AssetPlan.Toml

/-- The key that marks a table as a date-time. -/
def momentKey : String := "$__toml_private_datetime"

/-- The date-time that a whole text spells. -/
def momentOf? (cs : List Char) : Option Moment :=
  match dateTime cs with
  | some (m, []) => some m
  | _ => none

/-- The value at the mark of a date-time, if that is the first key. -/
def marked? : List (String × Toml) → Option Toml
  | [] => none
  | (key, v) :: _ => if key = momentKey then some v else none

mutual
/-- The value with every marked table replaced by its date-time; none if a mark has no text that
spells one. -/
def readMarks? : Toml → Option Toml
  | .array items => (readMarksOfItems? items).map .array
  | .table entries =>
    match marked? entries with
    | some (.string s) => (momentOf? s.toList).map .moment
    | some _ => none
    | none => (readMarksOfEntries? entries).map .table
  | t => some t
def readMarksOfItems? : List Toml → Option (List Toml)
  | [] => some []
  | t :: rest => do some ((← readMarks? t) :: (← readMarksOfItems? rest))
def readMarksOfEntries? : List (String × Toml) → Option (List (String × Toml))
  | [] => some []
  | (key, t) :: rest => do some ((key, ← readMarks? t) :: (← readMarksOfEntries? rest))
end

end AssetPlan.Toml
