/-! # Sets of characters

A character class of a pattern is a list of code-point ranges in ascending order without touching
neighbours. Case folding knows ASCII letters only and folds each range by its lower-case part, or
by its upper-case part if it has no lower-case one.
-/

namespace AssetPlan.Pattern

/-- Ranges of code points, both ends included. -/
abbrev CharSet := List (Nat × Nat)

namespace CharSet

/-- The greatest code point. -/
def maxCode : Nat := 0x10FFFF

def contains (set : CharSet) (c : Char) : Bool :=
  set.any fun (first, last) => first ≤ c.toNat && c.toNat ≤ last

/-- Adds a range to ascending ranges, joining those that overlap or touch it. -/
def add (first last : Nat) : CharSet → CharSet
  | [] => [(first, last)]
  | (a, b) :: rest =>
    if last + 1 < a then (first, last) :: (a, b) :: rest
    else if b + 1 < first then (a, b) :: add first last rest
    else add (min first a) (max last b) rest

/-- Ranges in any order as a set. -/
def ofRanges (ranges : List (Nat × Nat)) : CharSet :=
  ranges.foldl (fun set (first, last) => add first last set) []

/-- The characters from `next` on that are not in ascending ranges. -/
def complementFrom (next : Nat) : CharSet → CharSet
  | [] => if next ≤ maxCode then [(next, maxCode)] else []
  | (a, b) :: rest =>
    if next < a then (next, a - 1) :: complementFrom (b + 1) rest else complementFrom (b + 1) rest

/-- All other characters. -/
def negate (set : CharSet) : CharSet := complementFrom 0 set

/-- The other case of the ASCII letters of one case in a range. -/
def foldRange? (first last : Nat) : Option (Nat × Nat) :=
  let lower := (max first 97, min last 122)
  let upper := (max first 65, min last 90)
  if lower.1 ≤ lower.2 then some (lower.1 - 32, lower.2 - 32)
  else if upper.1 ≤ upper.2 then some (upper.1 + 32, upper.2 + 32)
  else none

/-- The set with the other case of its ASCII letters. -/
def foldCase (set : CharSet) : CharSet :=
  ofRanges (set ++ set.filterMap fun (first, last) => foldRange? first last)

def single (c : Char) : CharSet := [(c.toNat, c.toNat)]

def digits : CharSet := [(48, 57)]

def blanks : CharSet := [(9, 13), (32, 32)]

def wordCharacters : CharSet := [(48, 57), (65, 90), (95, 95), (97, 122)]

/-- The sets that have a name inside brackets. -/
def named? (name : String) : Option CharSet :=
  [("alnum", [(48, 57), (65, 90), (97, 122)]), ("alpha", [(65, 90), (97, 122)]),
    ("ascii", [(0, 127)]), ("blank", [(9, 9), (32, 32)]), ("cntrl", [(0, 31), (127, 127)]),
    ("digit", digits), ("graph", [(33, 126)]), ("lower", [(97, 122)]), ("print", [(32, 126)]),
    ("punct", [(33, 47), (58, 64), (91, 96), (123, 126)]), ("space", blanks),
    ("upper", [(65, 90)]), ("word", wordCharacters),
    ("xdigit", [(48, 57), (65, 70), (97, 102)])].lookup name

end CharSet

end AssetPlan.Pattern
