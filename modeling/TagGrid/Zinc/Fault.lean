import TagGrid.Error

/-! # Faults in Zinc and filter text

What can be wrong with a text in the Zinc format or with a filter, and how each fault
is worded.
-/

namespace TagGrid.Zinc

/-- What is wrong with a text. A found character is `none` at the end of the text. -/
inductive Fault where
  | violation (v : Violation)
  /-- A refusal that is passed on as it is, without a place in the text. -/
  | refusal (v : Violation)
  /-- Another character than the only one that could stand here. -/
  | expected (wanted : Char) (found : Option Char)
  | trailing (found : Char)
  | lineEnd (found : Char)
  | nameStart (found : Option Char)
  | valueMissing
  | valueStart (found : Char)
  /-- A dash without a digit or `INF` after it. -/
  | dash
  /-- A word after a dash that is not `INF`. -/
  | negativeWord (word : String)
  | word (word : String)
  /-- A part of a coordinate that is not a number. -/
  | decimal (text : String)
  /-- An absent value in a list. -/
  | absentItem
  | refWithoutId
  | endInStr
  | lineEndInStr
  | endInUri
  | lineEndInUri
  | endInEscape
  | escape (found : Char)
  | surrogate (code : Nat)
  | hexDigits
  /-- A hexadecimal number that is empty or beyond 63 bits. -/
  | hexNumber (digits : String)
  | number (text : String)
  | dateShape (text : String)
  | dateFields (text : String) (v : Violation)
  | timeShape (text : String)
  /-- A part after the seconds that is not a point and up to three digits. -/
  | timeFraction (text : String)
  /-- A character other than a digit after the point of the seconds. -/
  | fractionDigits (fraction : String)
  | timeFields (text : String) (v : Violation)
  /-- A timestamp without `T` after the date. -/
  | timestampShape (text : String)
  | offsetMissing (text : String)
  | offsetShape (offset : String)
  | zoneMissing (text : String)
  /-- A grid that does not start with `ver`. -/
  | gridStart (word : String)
  | version (version : String)
  /-- A row that ends before its last cell. -/
  | rowTooShort (cells columns : Nat)
  /-- A row that goes on after its last cell. -/
  | rowTooLong (columns : Nat)
  | emptyFilter
  | parenthesisUnopened
  | parenthesisUnclosed
  /-- A word between two operands that does not join them. -/
  | joiningWord (word : String)
  | afterFilter (found : Char)
  /-- A comparison with an absent value. -/
  | absentOperand
  /-- A dash in a path that is not the start of an arrow. -/
  | arrow
  /-- Something else where a segment of a path should start. -/
  | segmentStart (found : Option Char)
  deriving Repr, DecidableEq

namespace Fault

/-- What was found, in words. -/
def foundText : Option Char → String
  | some c => "'" ++ c.toString ++ "'"
  | none => "end of input"

def message : Fault → String
  | violation v => v.message
  | refusal v => v.message
  | expected wanted found => "Expected '" ++ wanted.toString ++ "', not " ++ foundText found
  | trailing found => "Expected end of input, not " ++ foundText (some found)
  | lineEnd found => "Expecting newline, not " ++ foundText (some found)
  | nameStart (some c) => "Invalid name start char " ++ foundText (some c)
  | nameStart none => "Expected name, not end of input"
  | valueMissing => "Unexpected end of input"
  | valueStart found => "Unexpected char " ++ foundText (some found)
  | dash => "Unexpected '-'"
  | negativeWord w => "Unexpected identifier -" ++ w
  | word w => "Unexpected identifier " ++ Text.quote w
  | decimal text => "Invalid decimal " ++ Text.quote text
  | absentItem => "N is not allowed inside a list"
  | refWithoutId => "Invalid empty ref"
  | endInStr => "Unexpected end of str"
  | lineEndInStr => "Unexpected newline in str"
  | endInUri => "Unexpected end of uri"
  | lineEndInUri => "Unexpected newline in uri"
  | endInEscape => "Unexpected end of input in escape"
  | escape found => "Invalid escape sequence \\" ++ found.toString
  | surrogate code =>
    "Invalid unicode escape \\u" ++ String.ofList (Text.hex4 code)
  | hexDigits => "Invalid unicode escape, expected 4 hex digits"
  | hexNumber digits => "Invalid hex literal 0x" ++ digits
  | number text => "Invalid number literal " ++ Text.quote text
  | dateShape text => "Invalid date " ++ Text.quote text ++ ", expected YYYY-MM-DD"
  | dateFields text v =>
    "Invalid date " ++ Text.quote text ++ ": " ++ (Error.ofViolation v).message
  | timeShape text => "Invalid time " ++ Text.quote text ++ ", expected hh:mm:ss"
  | timeFraction text =>
    "Invalid time " ++ Text.quote text ++ ", expected 1-3 fraction digits"
  | fractionDigits fraction => "Invalid time fraction " ++ Text.quote fraction
  | timeFields text v =>
    "Invalid time " ++ Text.quote text ++ ": " ++ (Error.ofViolation v).message
  | timestampShape text =>
    "Invalid timestamp " ++ Text.quote text ++ ", expected 'T' after date"
  | offsetMissing text => "Invalid timestamp " ++ Text.quote text ++ ", expected offset"
  | offsetShape offset => "Invalid timestamp offset " ++ Text.quote offset
  | zoneMissing text => "Expected timezone name after " ++ Text.quote text
  | gridStart w => "Expecting grid 'ver' identifier, not " ++ Text.quote w
  | version v => "Unsupported version " ++ Text.quote v
  | rowTooShort cells columns =>
    "Row has " ++ toString cells ++ " cells, expected " ++ toString columns
  | rowTooLong columns => "Row has more than " ++ toString columns ++ " cells"
  | emptyFilter => "Empty filter"
  | parenthesisUnopened => "Unexpected ')'"
  | parenthesisUnclosed => "Expecting ')' to close '('"
  | joiningWord w => "Expected 'and' or 'or', not " ++ Text.quote w
  | afterFilter found => "Unexpected " ++ foundText (some found) ++ " after filter"
  | absentOperand => "Expected a value to compare against, not N"
  | arrow => "Expected '>' after '-' in path"
  | segmentStart found => "Expected path name, not " ++ foundText found

/-- The error that a fault on a line is reported as. -/
def toError (line : Nat) : Fault → Error
  | refusal v => .ofViolation v
  | fault => .parse line fault.message

end Fault

end TagGrid.Zinc
