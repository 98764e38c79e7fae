import AssetPlan.Pattern.Error
import AssetPlan.Pattern.Syntax
import AssetPlan.Text.Blank
import AssetPlan.Text.Letter
import AssetPlan.Text.Split

/-! # Reading patterns

A pattern is a regular expression without look-around and back-references. `parse` reads a whole
pattern text; the first broken rule from the left is the one reported. The readers here take the
characters that are left and return those that remain.
-/

namespace AssetPlan.Pattern

open Text

/-- What is read, or the rule that is broken. -/
abbrev Reading := Except PatternError

/-- A value read off the front of a text with the characters that remain. -/
abbrev Rest (α : Type) := α × List Char

/-- How the following part of a pattern is read. -/
structure Flags where
  /-- ASCII letters match both cases -/
  ignoreCase : Bool := false
  /-- `^` and `$` match at lines -/
  multiLine : Bool := false
  /-- `.` matches a line feed -/
  dotAll : Bool := false
  /-- lines may end in a carriage return -/
  anyLineEnd : Bool := false
  /-- blanks and comments in the pattern do not count -/
  verbose : Bool := false
deriving DecidableEq, Repr

/-- Drops blanks and comments; `inComment` tells whether the text starts in a comment. -/
def dropBlanks : Bool → List Char → List Char
  | _, [] => []
  | true, c :: rest => dropBlanks (c != '\n') rest
  | false, c :: rest =>
    if isBlank c then dropBlanks false rest
    else if c = '#' then dropBlanks true rest
    else c :: rest

/-- Drops blanks and comments where they do not count. -/
def Flags.skip (flags : Flags) (cs : List Char) : List Char :=
  if flags.verbose then dropBlanks false cs else cs

/-- The character after the next one, where blanks and one comment sign may stand before it. -/
def Flags.secondChar (flags : Flags) (cs : List Char) : Option Char :=
  let rest := cs.drop 1
  if flags.verbose then
    match rest.dropWhile isBlank with
    | '#' :: more => (more.dropWhile isBlank).head? <|> rest.head?
    | [] => rest.head?
    | c :: _ => some c
  else rest.head?

/-- The node of one character. -/
def Flags.charNode (flags : Flags) (c : Char) : Node :=
  match if flags.ignoreCase then CharSet.foldRange? c.toNat c.toNat else none with
  | some (first, last) => .set (CharSet.ofRanges [(c.toNat, c.toNat), (first, last)])
  | none => .char c

/-- The node of the dot. -/
def Flags.dotNode (flags : Flags) : Node :=
  if flags.dotAll then .set [(0, CharSet.maxCode)]
  else if flags.anyLineEnd then .set [(0, 9), (11, 12), (14, CharSet.maxCode)]
  else .set [(0, 9), (11, CharSet.maxCode)]

def Flags.startNode (flags : Flags) : Node :=
  .look (if flags.multiLine then (if flags.anyLineEnd then .anyLineStart else .lineStart)
    else .start)

def Flags.stopNode (flags : Flags) : Node :=
  .look (if flags.multiLine then (if flags.anyLineEnd then .anyLineStop else .lineStop)
    else .stop)

/-- The value of a hexadecimal digit. -/
def hexDigit? (c : Char) : Option Nat :=
  if '0' ≤ c ∧ c ≤ '9' then some (c.toNat - 48)
  else if 'a' ≤ c ∧ c ≤ 'f' then some (c.toNat - 87)
  else if 'A' ≤ c ∧ c ≤ 'F' then some (c.toNat - 55)
  else none

/-- The character with a code, unless the code is a surrogate or too large. -/
def charOfCode? (n : Nat) : Option Char :=
  if n < 0xD800 ∨ (0xDFFF < n ∧ n ≤ CharSet.maxCode) then some (Char.ofNat n) else none

/-- A fixed number of hexadecimal digits read after the value `n`; the first one stands in front. -/
def hexFixed (flags : Flags) : Nat → Nat → List Char → Reading (Rest Nat)
  | 0, n, cs => .ok (n, cs)
  | _ + 1, _, [] => .error .hexFixedShort
  | count + 1, n, c :: rest =>
    match hexDigit? c with
    | none => .error .hexFixedDigit
    | some d => hexFixed flags count (n * 16 + d) (flags.skip rest)

/-- The digits between braces after the opening one: their number, value and what follows. The
fuel is the number of characters. -/
def hexBraced (flags : Flags) : Nat → Nat → Nat → List Char → Reading (Rest (Nat × Nat))
  | 0, _, _, _ => .error .hexBraceUnclosed
  | fuel + 1, count, n, cs =>
    match flags.skip cs with
    | [] => .error .hexBraceUnclosed
    | '\x7d' :: rest => .ok ((count, n), flags.skip rest)
    | c :: rest =>
      match hexDigit? c with
      | none => .error .hexBraceDigit
      | some d => hexBraced flags fuel (count + 1) (n * 16 + d) rest

/-- A character by its code, after the letter that announces `width` digits or braces. -/
def hexChar (flags : Flags) (width : Nat) (cs : List Char) : Reading (Rest Node) :=
  match flags.skip cs with
  | [] => .error .hexMissing
  | '\x7b' :: rest => do
    let ((count, n), rest) ← hexBraced flags (rest.length + 1) 0 0 rest
    if count = 0 then .error .hexBraceEmpty
    else
      match charOfCode? n with
      | none => .error .hexBraceInvalid
      | some c => .ok (flags.charNode c, rest)
  | cs => do
    let (n, rest) ← hexFixed flags width 0 cs
    match charOfCode? n with
    | none => .error .hexFixedInvalid
    | some c => .ok (flags.charNode c, rest)

/-- Characters of word-boundary names at the front, where blanks may stand after each. The fuel is
the number of characters. -/
def boundaryName (flags : Flags) : Nat → List Char → List Char × List Char
  | 0, cs => ([], cs)
  | fuel + 1, cs =>
    match cs with
    | [] => ([], [])
    | c :: rest =>
      if c.isAlpha || c == '-' then
        let (name, rest) := boundaryName flags fuel (flags.skip rest)
        (c :: name, rest)
      else ([], c :: rest)

/-- A word boundary after its letter, with its name in braces if it has one. Braces that hold no
name are left as a repetition. -/
def wordBoundary (flags : Flags) (cs : List Char) : Reading (Rest Node) :=
  match cs with
  | '\x7b' :: rest =>
    match flags.skip rest with
    | [] => .error .boundaryOrCountUnclosed
    | c :: more =>
      if c.isAlpha || c == '-' then
        match boundaryName flags (more.length + 1) (c :: more) with
        | (name, '\x7d' :: rest) =>
          match String.ofList name with
          | "start" => .ok (.look .wordStart, rest)
          | "end" => .ok (.look .wordStop, rest)
          | "start-half" => .ok (.look .wordStartHalf, rest)
          | "end-half" => .ok (.look .wordStopHalf, rest)
          | _ => .error .boundaryUnknown
        | _ => .error .boundaryUnclosed
      else .ok (.look .wordBoundary, cs)
  | _ => .ok (.look .wordBoundary, cs)

/-- The set of an escaped class letter. -/
def classLetter? (c : Char) : Option CharSet :=
  match c with
  | 'd' => some CharSet.digits
  | 's' => some CharSet.blanks
  | 'w' => some CharSet.wordCharacters
  | 'D' => some CharSet.digits.negate
  | 'S' => some CharSet.blanks.negate
  | 'W' => some CharSet.wordCharacters.negate
  | _ => none

/-- The character of an escaped control letter. -/
def controlLetter? (c : Char) : Option Char :=
  match c with
  | 'a' => some (Char.ofNat 7)
  | 'f' => some (Char.ofNat 12)
  | 't' => some '\t'
  | 'n' => some '\n'
  | 'r' => some '\r'
  | 'v' => some (Char.ofNat 11)
  | _ => none

/-- ASCII characters that mean themselves when escaped. -/
def isEscapable (c : Char) : Bool :=
  c.toNat < 128 && !c.isAlphanum && c != '<' && c != '>'

/-- An escape sequence after its backslash. -/
def escape (flags : Flags) (cs : List Char) : Reading (Rest Node) :=
  match cs with
  | [] => .error .escapeUnfinished
  | c :: rest =>
    if c.isDigit then .error .backreference
    else if c = 'p' ∨ c = 'P' then .error .unicodeClass
    else if c = 'x' then hexChar flags 2 rest
    else if c = 'u' then hexChar flags 4 rest
    else if c = 'U' then hexChar flags 8 rest
    else
      match classLetter? c with
      | some set => .ok (.set set, rest)
      | none =>
        if isEscapable c then .ok (flags.charNode c, rest)
        else
          match controlLetter? c with
          | some control => .ok (flags.charNode control, rest)
          | none =>
            if c = 'A' then .ok (.look .start, rest)
            else if c = 'z' then .ok (.look .stop, rest)
            else if c = 'b' then wordBoundary flags rest
            else if c = 'B' then .ok (.look .notWordBoundary, rest)
            else if c = '<' then .ok (.look .wordStart, rest)
            else if c = '>' then .ok (.look .wordStop, rest)
            else .error .escapeUnknown

/-- The decimal digits at the front, where blanks may stand after each. The fuel is the number of
characters. -/
def spacedDigits (flags : Flags) : Nat → List Char → List Char × List Char
  | 0, cs => ([], cs)
  | fuel + 1, cs =>
    match cs with
    | [] => ([], [])
    | c :: rest =>
      if c.isDigit then
        let (ds, rest) := spacedDigits flags fuel (flags.skip rest)
        (c :: ds, rest)
      else ([], c :: rest)

/-- A number of copies with blanks around it. -/
def count (flags : Flags) (cs : List Char) : Reading (Rest Nat) :=
  let cs := cs.dropWhile isBlank
  let (ds, rest) := spacedDigits flags cs.length cs
  let rest := if rest.head?.any isBlank then flags.skip (rest.dropWhile isBlank) else rest
  if ds.isEmpty then .error .countMissing
  else
    let n := ds.foldl (fun n c => n * 10 + (c.toNat - 48)) 0
    if n < Nat.pow 2 32 then .ok (n, rest) else .error .countInvalid

/-- A question mark after a repetition changes only which match is preferred. -/
def dropLazyMark (cs : List Char) : List Char :=
  match cs with
  | '?' :: rest => rest
  | _ => cs

/-- A counted repetition of a node, after its opening brace. -/
def countedRepetition (flags : Flags) (sub : Node) (cs : List Char) : Reading (Rest Node) :=
  match flags.skip cs with
  | [] => .error .countUnclosed
  | cs => do
    let (least, rest) ← count flags cs
    let (most, rest) ←
      match rest with
      | [] => .error .countUnclosedAfterLeast
      | ',' :: rest =>
        match flags.skip rest with
        | [] => .error .countUnclosedAfterComma
        | '\x7d' :: rest => pure (none, '\x7d' :: rest)
        | rest => do
          let (most, rest) ← count flags rest
          if rest.isEmpty then .error .countUnclosedAfterMost else pure (some most, rest)
      | rest => pure (some least, rest)
    match rest with
    | '\x7d' :: rest =>
      let rest := dropLazyMark (flags.skip rest)
      if most.any (· < least) then .error .countReversed
      else .ok (Node.ofRepetition least most sub, rest)
    | _ => .error .countBraceMissing

/-- Switches a flag; none if no flag has the letter. -/
def Flags.switch? (flags : Flags) (letter : Char) (on : Bool) : Option Flags :=
  match letter with
  | 'i' => some { flags with ignoreCase := on }
  | 'm' => some { flags with multiLine := on }
  | 's' => some { flags with dotAll := on }
  | 'R' => some { flags with anyLineEnd := on }
  | 'x' => some { flags with verbose := on }
  | 'U' => some flags
  | 'u' => some flags
  | _ => none

/-- Flag letters up to a colon or a closing parenthesis, which stays. `negated` tells whether a
minus was seen, `dangling` whether it was the last character, `seen` which letters were there. -/
def flagLetters (negated dangling : Bool) (seen : List Char) (flags : Flags) :
    List Char → Reading (Rest Flags)
  | [] => .error .flagsUnclosed
  | c :: rest =>
    if c = ':' ∨ c = ')' then
      if dangling then .error .flagsNegationDangling else .ok (flags, c :: rest)
    else if c = '-' then
      if negated then .error .flagsNegatedTwice else flagLetters true true seen flags rest
    else
      match flags.switch? c (!negated) with
      | none => .error .flagUnknown
      | some flags =>
        if seen.contains c then .error .flagDuplicate
        else flagLetters negated false (c :: seen) flags rest

/-- A character that a group name may hold, as its first or at a later place. -/
def isNameChar (first : Bool) (c : Char) : Bool :=
  if first then c == '_' || isLetter c
  else c == '_' || c == '.' || c == '[' || c == ']' || isLetter c || isNumeral c

/-- The rest of a group name up to its closing bracket; `first` tells whether the name is empty so
far. -/
def nameChars (first : Bool) : List Char → Reading (Rest (List Char))
  | [] => .error .nameUnclosed
  | c :: rest =>
    if c = '>' then .ok ([], rest)
    else if isNameChar first c then do
      let (name, rest) ← nameChars false rest
      .ok (c :: name, rest)
    else .error .nameInvalid

/-- A group name after its opening bracket, different from the names before. -/
def groupName (names : List String) (cs : List Char) : Reading (Rest String) :=
  if cs.isEmpty then .error .nameMissing
  else do
    let (name, rest) ← nameChars true cs
    if name.isEmpty then .error .nameEmpty
    else
      let name := String.ofList name
      if names.contains name then .error .duplicateName else .ok (name, rest)

/-- A named set in brackets of its own, after the opening bracket. -/
def namedSet? (cs : List Char) : Option (CharSet × List Char) :=
  match cs with
  | ':' :: rest =>
    let (negated, rest) :=
      match rest with
      | '^' :: rest => (true, rest)
      | _ => (false, rest)
    let name := rest.takeWhile (· != ':')
    match rest.dropWhile (· != ':') with
    | ':' :: ']' :: rest =>
      (CharSet.named? (.ofList name)).map fun set => (if negated then set.negate else set, rest)
    | _ => none
  | _ => none

/-- One item of a class: a character or an escape sequence. -/
def classItem (flags : Flags) (c : Char) (rest : List Char) : Reading (Rest Node) :=
  if c = '\\' then escape flags rest else .ok (.char c, rest)

/-- The ranges that an item of a class adds. -/
def itemRanges : Node → Reading CharSet
  | .char c => .ok (CharSet.single c)
  | .set s => .ok s
  | _ => .error .classItem

/-- The character that an end of a range stands for. -/
def rangeEnd : Node → Reading Nat
  | .char c => .ok c.toNat
  | _ => .error .classRangeItem

/-- One item or one range of a class, starting with the character `c`. -/
def classRange (flags : Flags) (c : Char) (rest : List Char) : Reading (Rest CharSet) := do
  let (first, rest) ← classItem flags c rest
  let rest := flags.skip rest
  if rest.isEmpty then .error .classUnclosedAfterItem
  else
    let second := flags.secondChar rest
    if rest.head? ≠ some '-' ∨ second = some ']' ∨ second = some '-' then
      let ranges ← itemRanges first
      .ok (ranges, rest)
    else
      match flags.skip (rest.drop 1) with
      | [] => .error .classUnclosedAfterDash
      | c :: rest => do
        let (last, rest) ← classItem flags c rest
        let a ← rangeEnd first
        let b ← rangeEnd last
        if b < a then .error .classRangeReversed else .ok ([(a, b)], rest)

/-- The items of a class up to its closing bracket, added to the ranges before. The fuel is the
number of characters. -/
def classItems (flags : Flags) : Nat → CharSet → List Char → Reading (Rest CharSet)
  | 0, _, _ => .error .classUnclosedAfterItem
  | fuel + 1, ranges, cs =>
    match flags.skip cs with
    | [] => .error .classUnclosed
    | c :: rest =>
      if c = '[' then
        match namedSet? rest with
        | some (set, rest) => classItems flags fuel (ranges ++ set) rest
        | none => .error .classNested
      else if c = ']' then .ok (ranges, rest)
      else if c = '&' ∧ rest.head? = some '&' then .error .classIntersection
      else if c = '-' ∧ rest.head? = some '-' then .error .classDifference
      else if c = '~' ∧ rest.head? = some '~' then .error .classSymmetricDifference
      else do
        let (more, rest) ← classRange flags c rest
        classItems flags fuel (ranges ++ more) rest

/-- The dashes at the start of a class, which stand for themselves. The fuel is the number of
characters. -/
def leadingDashes (flags : Flags) : Nat → CharSet → List Char → Reading (Rest CharSet)
  | 0, ranges, cs => .ok (ranges, cs)
  | fuel + 1, ranges, cs =>
    match cs with
    | '-' :: rest =>
      match flags.skip rest with
      | [] => .error .classUnclosedAfterDash
      | rest => leadingDashes flags fuel (ranges ++ CharSet.single '-') rest
    | _ => .ok (ranges, cs)

/-- A class after its opening bracket. A closing bracket in first place stands for itself. -/
def charClass (flags : Flags) (cs : List Char) : Reading (Rest Node) := do
  let (negated, cs) ←
    match flags.skip cs with
    | [] => .error .classUnclosed
    | '^' :: rest =>
      match flags.skip rest with
      | [] => .error .classUnclosedAfterNegation
      | rest => pure (true, rest)
    | cs => pure (false, cs)
  let (ranges, cs) ← leadingDashes flags cs.length [] cs
  let (ranges, cs) ←
    match ranges, cs with
    | [], ']' :: rest =>
      match flags.skip rest with
      | [] => .error .classUnclosedAfterBracket
      | rest => pure (CharSet.single ']', rest)
    | ranges, cs => pure (ranges, cs)
  let (ranges, rest) ← classItems flags (cs.length + 1) ranges cs
  let set := CharSet.ofRanges ranges
  let set := if flags.ignoreCase then set.foldCase else set
  .ok (.set (if negated then set.negate else set), rest)

/-- What an opening parenthesis starts. -/
inductive Opening where
  /-- flags for the rest of the group around -/
  | directive (flags : Flags)
  /-- a group read with flags -/
  | group (flags : Flags)
  /-- a group that is captured, with its name if it has one -/
  | capture (name : Option String)

/-- What stands after an opening parenthesis, up to the content of the group. -/
def opening (flags : Flags) (names : List String) (cs : List Char) : Reading (Rest Opening) :=
  let cs := flags.skip cs
  let starts (text : String) : Option (List Char) := dropStart? text.toList cs
  if ((starts "?=") <|> (starts "?!") <|> (starts "?<=") <|> (starts "?<!")).isSome then
    .error .lookAround
  else
    match (starts "?P<") <|> (starts "?<") with
    | some rest => do
      let (name, rest) ← groupName names rest
      .ok (.capture (some name), rest)
    | none =>
      match cs with
      | '?' :: rest => do
        if rest.isEmpty then .error .groupKindMissing
        let (flags, after) ← flagLetters false false [] flags rest
        match after with
        | ')' :: _ =>
          if rest.head? = some ')' then .error .flagsEmpty else .ok (.directive flags, after)
        | _ => .ok (.group flags, after.drop 1)
      | _ => .ok (.capture none, cs)

/-- A group that starts more than this many levels deep is refused. -/
def maxDepth : Nat := 50

/-- The captured groups that were opened so far: how many, and their names. -/
structure Groups where
  count : Nat := 0
  names : List String := []

/-- Opens one more group. -/
def Groups.add (g : Groups) (name : Option String) : Groups :=
  ⟨g.count + 1, name.toList ++ g.names⟩

/-- What has been read of a group: the alternatives before, the nodes of the current one, and the
captured groups so far. The first two lists are reversed. -/
structure Progress where
  alternatives : List Node := []
  current : List Node := []
  groups : Groups := {}

def Progress.push (p : Progress) (n : Node) : Progress := { p with current := n :: p.current }

/-- Closes the current alternative. -/
def Progress.next (p : Progress) : Progress :=
  { p with
    alternatives := Node.ofConcat p.current.reverse :: p.alternatives
    current := [] }

def Progress.finish (p : Progress) : Node := Node.ofAlternation p.next.alternatives.reverse

/-- One node that is neither a group nor repeated, starting with the character `c`. -/
def atom (flags : Flags) (c : Char) (rest : List Char) : Reading (Rest Node) :=
  if c = '[' then charClass flags rest
  else if c = '\\' then escape flags rest
  else if c = '.' then .ok (flags.dotNode, rest)
  else if c = '^' then .ok (flags.startNode, rest)
  else if c = '$' then .ok (flags.stopNode, rest)
  else .ok (flags.charNode c, rest)

/-- The bounds of an uncounted repetition. -/
def repetitionBounds? (c : Char) : Option (Nat × Option Nat) :=
  match c with
  | '?' => some (0, some 1)
  | '*' => some (0, none)
  | '+' => some (1, none)
  | _ => none

/-- What follows the closing parenthesis of a group. -/
def closeGroup : List Char → Reading (List Char)
  | ')' :: rest => .ok rest
  | _ => .error .groupUnclosed

/-- The content of a group at a depth, up to its closing parenthesis, which stays, or the end of
the pattern. Also returns the captured groups. The fuel bounds the number of characters and
groups. -/
def content : Nat → Nat → Flags → Progress → List Char → Reading (Rest (Node × Groups))
  | 0, _, _, _, _ => .error .tooDeep
  | fuel + 1, depth, flags, p, cs =>
    match flags.skip cs with
    | [] => .ok ((p.finish, p.groups), [])
    | ')' :: rest =>
      if depth = 0 then .error .groupUnopened else .ok ((p.finish, p.groups), ')' :: rest)
    | '(' :: rest => do
      let (kind, rest) ← opening flags p.groups.names rest
      match kind with
      | .directive flags => content fuel depth flags p (rest.drop 1)
      | .group inner =>
        if depth + 1 > maxDepth then .error .tooDeep
        let ((node, groups), rest) ← content fuel (depth + 1) inner ⟨[], [], p.groups⟩ rest
        let rest ← closeGroup rest
        content fuel depth flags { p.push node with groups := groups } rest
      | .capture name =>
        if depth + 1 > maxDepth then .error .tooDeep
        let opened := p.groups.add name
        let ((node, groups), rest) ← content fuel (depth + 1) flags ⟨[], [], opened⟩ rest
        let rest ← closeGroup rest
        let node := .group opened.count name node
        content fuel depth flags { p.push node with groups := groups } rest
    | '|' :: rest => content fuel depth flags p.next rest
    | '\x7b' :: rest =>
      match p.current with
      | [] => .error .countNothing
      | sub :: before => do
        let (node, rest) ← countedRepetition flags sub rest
        content fuel depth flags { p with current := node :: before } rest
    | c :: rest =>
      match repetitionBounds? c, p.current with
      | some _, [] => .error .repeatNothing
      | some (least, most), sub :: before =>
        let node := Node.ofRepetition least most sub
        content fuel depth flags { p with current := node :: before } (dropLazyMark rest)
      | none, _ => do
        let (node, rest) ← atom flags c rest
        content fuel depth flags (p.push node) rest

/-- Reads a whole pattern. -/
def parse (ignoreCase : Bool) (source : String) : Reading Node := do
  let cs := source.toList
  let ((node, _), _) ← content (2 * cs.length + 2) 0 { ignoreCase := ignoreCase } {} cs
  if node.depth > maxDepth then .error .tooDeep else .ok node

end AssetPlan.Pattern
