/-! # Blank characters

The characters that trimming removes, and trimming itself. Blank means the Unicode property
`White_Space`; it is wider than the blanks of the structured text formats, which name their own.
-/

namespace AssetPlan.Text

/-- The Unicode property `White_Space`. -/
def isBlank (c : Char) : Bool :=
  let n := c.toNat
  (9 ≤ n && n ≤ 13) || n == 0x20 || n == 0x85 || n == 0xA0 || n == 0x1680
    || (0x2000 ≤ n && n ≤ 0x200A) || n == 0x2028 || n == 0x2029 || n == 0x202F
    || n == 0x205F || n == 0x3000

/-- Removes the longest run at the end whose characters all satisfy `p`. -/
def dropTrailing (p : Char → Bool) (cs : List Char) : List Char :=
  (cs.reverse.dropWhile p).reverse

/-- Removes the blanks at both ends. -/
def trim (cs : List Char) : List Char :=
  dropTrailing isBlank (cs.dropWhile isBlank)

/-- A text with nothing but blanks. -/
def isBlankText (s : String) : Bool :=
  s.toList.all isBlank

end AssetPlan.Text
