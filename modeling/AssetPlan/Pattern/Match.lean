import AssetPlan.Pattern.Syntax

/-! # Matching

A text is read once from left to right. Marks on the leaves of a tree tell which leaves read the
last character; between two characters the marks, the empty parts of the tree and the conditions on
the gap tell where a match can end and which leaves may read on. A match may start at every gap.
Nothing is tried twice: the work for a character is bounded by the size and the depth of the tree.
-/

namespace AssetPlan.Pattern

/-- A gap of a text: the character before it, if any, and the characters after it. -/
structure Gap where
  before : Option Char
  after : List Char

def isWord (c : Option Char) : Bool :=
  match c with
  | some c => CharSet.wordCharacters.contains c
  | none => false

/-- The condition holds at a gap. Word characters are ASCII letters, digits and the underscore. -/
def Look.holds (l : Look) (g : Gap) : Bool :=
  let next := g.after.head?
  let before := isWord g.before
  let after := isWord next
  match l with
  | .start => g.before.isNone
  | .stop => next.isNone
  | .lineStart => g.before.isNone || g.before == some '\n'
  | .lineStop => next.isNone || next == some '\n'
  | .anyLineStart =>
    g.before.isNone || g.before == some '\n' || (g.before == some '\r' && next != some '\n')
  | .anyLineStop =>
    next.isNone || next == some '\r' || (next == some '\n' && g.before != some '\r')
  | .wordBoundary => before != after
  | .notWordBoundary => before == after
  | .wordStart => !before && after
  | .wordStop => before && !after
  | .wordStartHalf => !before
  | .wordStopHalf => !after

/-- A tree with marks on its leaves. A leaf reads one character of its set. -/
inductive Marked where
  | empty
  | look (l : Look)
  | leaf (set : CharSet) (marked : Bool)
  | concat (first second : Marked)
  | either (first second : Marked)
  /-- one or more copies -/
  | plus (sub : Marked)
deriving Repr, Inhabited

namespace Marked

/-- A number of copies before a tree. -/
def copies (sub : Marked) (rest : Marked) : Nat → Marked
  | 0 => rest
  | n + 1 => .concat sub (copies sub rest n)

/-- At most a number of copies. -/
def atMost (sub : Marked) : Nat → Marked
  | 0 => .empty
  | n + 1 => .either .empty (.concat sub (atMost sub n))

mutual
/-- A tree without marks. A text with fewer than `bound` characters cannot tell more than `bound`
copies of a repetition from `bound` of them. -/
def ofNode (bound : Nat) : Node → Marked
  | .empty => .empty
  | .char c => .leaf (CharSet.single c) false
  | .set s => .leaf s false
  | .look l => .look l
  | .repeated least most sub =>
    let sub := ofNode bound sub
    match least, most with
    | 0, none => .either .empty (.plus sub)
    | least + 1, none => copies sub (.plus sub) (min least bound)
    | least, some most =>
      copies sub (atMost sub (min (most - least) bound)) (min least bound)
  | .group _ _ sub => ofNode bound sub
  | .concat subs => ofAll bound subs
  | .alternation subs => ofSome bound subs
/-- All nodes in a row. -/
def ofAll (bound : Nat) : List Node → Marked
  | [] => .empty
  | n :: rest => .concat (ofNode bound n) (ofAll bound rest)
/-- One of the nodes. -/
def ofSome (bound : Nat) : List Node → Marked
  | [] => .leaf [] false
  | n :: rest => .either (ofNode bound n) (ofSome bound rest)
end

/-- The tree matches the empty text at a gap. -/
def nullable (g : Gap) : Marked → Bool
  | .empty => true
  | .look l => l.holds g
  | .leaf _ _ => false
  | .concat a b => nullable g a && nullable g b
  | .either a b => nullable g a || nullable g b
  | .plus a => nullable g a

/-- A match of the tree that read the last character can end at a gap. -/
def final (g : Gap) : Marked → Bool
  | .empty => false
  | .look _ => false
  | .leaf _ marked => marked
  | .concat a b => final g b || (nullable g b && final g a)
  | .either a b => final g a || final g b
  | .plus a => final g a

/-- Reads the character after a gap; `enter` tells whether a match of the tree may start there. -/
def shift (g : Gap) (c : Char) (enter : Bool) : Marked → Marked
  | .empty => .empty
  | .look l => .look l
  | .leaf set _ => .leaf set (enter && set.contains c)
  | .concat a b =>
    .concat (shift g c enter a) (shift g c (final g a || (enter && nullable g a)) b)
  | .either a b => .either (shift g c enter a) (shift g c enter b)
  | .plus a => .plus (shift g c (enter || final g a) a)

/-- A match ends at one of the gaps of a text, or started before it; `before` is the last character
read. -/
def matchesFrom (t : Marked) (before : Option Char) : List Char → Bool
  | [] => nullable ⟨before, []⟩ t || final ⟨before, []⟩ t
  | c :: rest =>
    let g : Gap := ⟨before, c :: rest⟩
    nullable g t || final g t || matchesFrom (shift g c true t) (some c) rest

end Marked

/-- A match stands somewhere in the text. -/
def Node.occursIn (n : Node) (text : List Char) : Bool :=
  (Marked.ofNode (text.length + 1) n).matchesFrom none text

end AssetPlan.Pattern
