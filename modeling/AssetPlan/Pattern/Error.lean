/-! # Why a pattern is refused

One cause a rule of the syntax, and the wording of each.
-/

namespace AssetPlan.Pattern

/-- The rule that a pattern breaks. -/
inductive PatternError where
  | tooDeep
  | tooLarge
  | duplicateName
  | groupUnclosed
  | groupUnopened
  | groupKindMissing
  | lookAround
  | flagsEmpty
  | flagUnknown
  | flagDuplicate
  | flagsNegatedTwice
  | flagsNegationDangling
  | flagsUnclosed
  | nameMissing
  | nameInvalid
  | nameUnclosed
  | nameEmpty
  | countMissing
  | countInvalid
  | repeatNothing
  | countNothing
  | countUnclosed
  | countUnclosedAfterLeast
  | countUnclosedAfterComma
  | countUnclosedAfterMost
  | countBraceMissing
  | countReversed
  | hexMissing
  | hexFixedShort
  | hexFixedDigit
  | hexFixedInvalid
  | hexBraceUnclosed
  | hexBraceDigit
  | hexBraceEmpty
  | hexBraceInvalid
  | escapeUnfinished
  | escapeUnknown
  | backreference
  | unicodeClass
  | classUnclosed
  | classUnclosedAfterItem
  | classUnclosedAfterDash
  | classUnclosedAfterBracket
  | classUnclosedAfterNegation
  | classRangeReversed
  | classRangeItem
  | classItem
  | classIntersection
  | classDifference
  | classSymmetricDifference
  | classNested
  | boundaryOrCountUnclosed
  | boundaryUnclosed
  | boundaryUnknown
deriving DecidableEq, Repr

def PatternError.message : PatternError → String
  | .tooDeep => "pattern has too much nesting"
  | .tooLarge => "compiled regex exceeded size limit"
  | .duplicateName => "duplicate capture group name"
  | .groupUnclosed => "found open group without closing ')'"
  | .groupUnopened => "found closing ')' without matching '('"
  | .groupKindMissing => "expected closing ')', but got end of pattern"
  | .lookAround => "look-around is not supported"
  | .flagsEmpty => "empty flag directive '(?)' is not allowed"
  | .flagUnknown => "unrecognized inline flag"
  | .flagDuplicate => "duplicate inline flag is not allowed"
  | .flagsNegatedTwice => "inline flag negation cannot be repeated"
  | .flagsNegationDangling => "inline flags cannot end with negation directive"
  | .flagsUnclosed => "expected ':' or ')' to end inline flags, but got end of pattern"
  | .nameMissing => "expected capture group name, but got end of pattern"
  | .nameInvalid => "invalid group name"
  | .nameUnclosed => "expected end of capture group name, but got end of pattern"
  | .nameEmpty => "empty capture group names are not allowed"
  | .countMissing => "expected decimal number, but found no digits"
  | .countInvalid => "got invalid decimal number"
  | .repeatNothing => "uncounted repetition operator must be applied to a sub-expression"
  | .countNothing => "counted repetition operator must be applied to a sub-expression"
  | .countUnclosed => "found unclosed counted repetition operator"
  | .countUnclosedAfterLeast => "found incomplete and unclosed counted repetition operator"
  | .countUnclosedAfterComma =>
    "found counted repetition operator with a comma that is unclosed"
  | .countUnclosedAfterMost => "found counted repetition with min and max that is unclosed"
  | .countBraceMissing =>
    "expected closing brace for counted repetition, but got something else"
  | .countReversed => "found counted repetition with a min bigger than its max"
  | .hexMissing => "expected hexadecimal number, but saw end of pattern first"
  | .hexFixedShort => "expected fixed length hexadecimal number, but saw end of pattern first"
  | .hexFixedDigit => "expected fixed length hexadecimal number, but got non-hex digit"
  | .hexFixedInvalid => "got invalid fixed length hexadecimal number"
  | .hexBraceUnclosed =>
    "expected hexadecimal number, but saw end of pattern before closing brace"
  | .hexBraceDigit => "expected hexadecimal number in braces, but got non-hex digit"
  | .hexBraceEmpty => "expected hexadecimal number in braces, but got no digits"
  | .hexBraceInvalid => "got invalid hexadecimal number in braces"
  | .escapeUnfinished =>
    "saw start of escape sequence, but saw end of pattern before it finished"
  | .escapeUnknown => "unrecognized escape sequence"
  | .backreference => "backreferences are not supported"
  | .unicodeClass => "Unicode character classes are not supported"
  | .classUnclosed => "found unclosed character class"
  | .classUnclosedAfterItem => "non-empty character class has no closing bracket"
  | .classUnclosedAfterDash => "non-empty character class has no closing bracket after dash"
  | .classUnclosedAfterBracket =>
    "character class begins with literal ']' but has no closing bracket"
  | .classUnclosedAfterNegation => "negated character class has no closing bracket"
  | .classRangeReversed => "invalid range in character class"
  | .classRangeItem => "character class ranges must start and end with a single character"
  | .classItem => "invalid escape sequence in character class"
  | .classIntersection => "character class intersection is not supported"
  | .classDifference => "character class difference is not supported"
  | .classSymmetricDifference => "character class symmetric difference is not supported"
  | .classNested => "nested character classes are not supported"
  | .boundaryOrCountUnclosed =>
    "found start of special word boundary or repetition without an end"
  | .boundaryUnclosed =>
    "special word boundary assertion is unclosed or has an invalid character"
  | .boundaryUnknown => "special word boundary assertion is unrecognized"

end AssetPlan.Pattern
