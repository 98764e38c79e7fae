import AssetPlan.Pattern.CharSet

/-! # Pattern trees

What a pattern text stands for. Whether a repetition prefers more or fewer copies does not change
which texts match, so trees do not record it. Two measures bound a tree: its depth, and the size of
the program that a table of states for it would need.
-/

namespace AssetPlan.Pattern

/-- A condition on a position of the text. -/
inductive Look where
  | start
  | stop
  | lineStart
  | lineStop
  /-- a line may also end in a carriage return, or in one followed by a line feed -/
  | anyLineStart
  | anyLineStop
  | wordBoundary
  | notWordBoundary
  | wordStart
  | wordStop
  | wordStartHalf
  | wordStopHalf
deriving DecidableEq, Repr

/-- A pattern tree. -/
inductive Node where
  | empty
  | char (c : Char)
  | set (s : CharSet)
  | look (l : Look)
  /-- at least `least` copies, and at most `most` if there is a bound -/
  | repeated (least : Nat) (most : Option Nat) (sub : Node)
  /-- a captured group; groups are numbered from one by their opening parentheses -/
  | group (index : Nat) (name : Option String) (sub : Node)
  | concat (subs : List Node)
  | alternation (subs : List Node)
deriving Repr, Inhabited

namespace Node

/-- Several nodes after one another; one alone is itself. -/
def ofConcat : List Node → Node
  | [] => .empty
  | [n] => n
  | ns => .concat ns

/-- One of several nodes; one alone is itself. -/
def ofAlternation : List Node → Node
  | [] => .set []
  | [n] => n
  | ns => .alternation ns

/-- A repetition; none of something is nothing, and one of something is itself. -/
def ofRepetition (least : Nat) (most : Option Nat) (sub : Node) : Node :=
  if least = 0 ∧ most = some 0 then .empty
  else if least = 1 ∧ most = some 1 then sub
  else .repeated least most sub

mutual
/-- The number of steps from the root to the deepest leaf. -/
def depth : Node → Nat
  | .repeated _ _ sub => depth sub + 1
  | .group _ _ sub => depth sub + 1
  | .concat subs => depthAll subs + 1
  | .alternation subs => depthAll subs + 1
  | _ => 0
/-- The greatest depth of several nodes. -/
def depthAll : List Node → Nat
  | [] => 0
  | n :: rest => max (depth n) (depthAll rest)
end

mutual
/-- The node matches the empty text, if its positions allow it. -/
def nullable : Node → Bool
  | .empty => true
  | .char _ => false
  | .set _ => false
  | .look _ => true
  | .repeated least _ sub => least == 0 || nullable sub
  | .group _ _ sub => nullable sub
  | .concat subs => allNullable subs
  | .alternation subs => someNullable subs
def allNullable : List Node → Bool
  | [] => true
  | n :: rest => nullable n && allNullable rest
def someNullable : List Node → Bool
  | [] => false
  | n :: rest => nullable n || someNullable rest
end

/-- Bytes for a state of the program. -/
def stateSize : Nat := 32

/-- Bytes for a branch of a state. -/
def branchSize : Nat := 4

/-- Bytes for a range of a state. -/
def rangeSize : Nat := 8

/-- Bytes for a group, besides its states. -/
def groupSize : Nat := 16

mutual
/-- Bytes of the states for a node; every copy of a repetition has states of its own. -/
def stateBytes : Node → Nat
  | .empty => stateSize
  | .char _ => stateSize
  | .set s => stateSize + rangeSize * s.length
  | .look _ => stateSize
  | .repeated least most sub =>
    let one := stateBytes sub
    match least, most with
    | 0, some 1 => 2 * stateSize + 2 * branchSize + one
    | 0, none =>
      if nullable sub then 3 * stateSize + 4 * branchSize + one
      else stateSize + 2 * branchSize + one
    | least, none => least * one + stateSize + 2 * branchSize
    | least, some most =>
      let required := if least = 0 then stateSize else least * one
      if least = most then required
      else required + stateSize + (most - least) * (stateSize + 2 * branchSize + one)
  | .group _ _ sub => 2 * stateSize + stateBytes sub
  | .concat subs => stateBytesAll subs
  | .alternation subs => 2 * stateSize + branchSize * subs.length + stateBytesAll subs
def stateBytesAll : List Node → Nat
  | [] => 0
  | n :: rest => stateBytes n + stateBytesAll rest
end

mutual
/-- The greatest number of a group in a node; zero if it has none. -/
def lastGroup : Node → Nat
  | .repeated _ _ sub => lastGroup sub
  | .group index _ sub => max index (lastGroup sub)
  | .concat subs => lastGroupOf subs
  | .alternation subs => lastGroupOf subs
  | _ => 0
def lastGroupOf : List Node → Nat
  | [] => 0
  | n :: rest => max (lastGroup n) (lastGroupOf rest)
end

mutual
/-- Bytes for the names of the groups of a node. -/
def nameBytes : Node → Nat
  | .repeated _ _ sub => nameBytes sub
  | .group _ name sub => (name.map fun n => n.utf8ByteSize + 4).getD 0 + nameBytes sub
  | .concat subs => nameBytesAll subs
  | .alternation subs => nameBytesAll subs
  | _ => 0
def nameBytesAll : List Node → Nat
  | [] => 0
  | n :: rest => nameBytes n + nameBytesAll rest
end

/-- Bytes of the whole program, with the group around it, which has the number zero, and the state
that accepts. A group that was dropped still has its place before those with greater numbers. -/
def programBytes (n : Node) : Nat :=
  stateBytes n + nameBytes n + 3 * stateSize + groupSize * (lastGroup n + 1)

end Node

end AssetPlan.Pattern
