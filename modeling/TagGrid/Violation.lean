import TagGrid.Double.Shortest
import TagGrid.Text

/-! # Why data is refused

Every type of the library that restricts its contents has a constructor that checks
them. A `Violation` is the reason such a constructor gives for refusing, and
`Violation.message` is its wording.
-/

namespace TagGrid

/-- The reason why a value, a tag, a column or a path is refused. -/
inductive Violation where
  /-- A unit that is empty or holds a character no unit has. -/
  | unitName (unit : String)
  | unitOnSpecial (number : Double)
  /-- An id of a ref that is empty or holds a character no id has. -/
  | refId (id : String)
  /-- A latitude in degrees beyond a pole. -/
  | latitude (degrees : Double)
  /-- A longitude in degrees beyond half a turn. -/
  | longitude (degrees : Double)
  /-- A latitude in millionths of a degree beyond a pole. -/
  | microLatitude (micro : Int)
  /-- A longitude in millionths of a degree beyond half a turn. -/
  | microLongitude (micro : Int)
  /-- A media type that is empty or cannot be written between parentheses. -/
  | mediaType (mime : String)
  | symbol (name : String)
  /-- A type name of a typed text that is not a capitalised name. -/
  | typeName (name : String)
  | year (year : Int)
  | month (month : Nat)
  | day (day : Nat) (year : Int) (month : Nat)
  | hour (hour : Nat)
  | minute (minute : Nat)
  | second (second : Nat)
  | millisecond (millisecond : Nat)
  /-- An offset of more than eighteen hours or with a part of a minute. -/
  | offset (seconds : Int)
  | zone (name : String)
  | millis (millis : Int)
  | tagName (name : String)
  | columnName (name : String)
  | duplicateColumn (name : String)
  /-- A column added to a grid that has rows already. -/
  | columnAfterRows
  /-- A row with another number of cells than there are columns. -/
  | cellCount (cells columns : Nat)
  | noColumns
  | emptyPath
  | pathSegment (name : String)
  /-- A value of another kind than the one asked for. -/
  | kind (expected found : String)
  deriving Repr, DecidableEq

namespace Violation

def message : Violation → String
  | unitName unit => "Invalid unit name: " ++ Text.quote unit
  | unitOnSpecial number => String.ofList number.text ++ " cannot carry a unit"
  | refId id => "Invalid ref id: " ++ Text.quote id
  | latitude degrees => "Invalid lat > +/- 90: " ++ String.ofList (degrees.textWith "inf")
  | longitude degrees => "Invalid lng > +/- 180: " ++ String.ofList (degrees.textWith "inf")
  | microLatitude micro => "Invalid lat > +/- 90: " ++ toString micro
  | microLongitude micro => "Invalid lng > +/- 180: " ++ toString micro
  | mediaType mime => "Invalid mime val: " ++ Text.quote mime
  | symbol name => "Invalid symbol: " ++ Text.quote name
  | typeName name => "Invalid XStr type: " ++ Text.quote name
  | year y => "Invalid year: " ++ toString y
  | month m => "Invalid month: " ++ toString m
  | day d y m =>
    "Invalid day " ++ toString d ++ " for " ++ toString y ++ "-" ++
      String.ofList (Text.decimalPadded 2 m)
  | hour h => "Invalid hour: " ++ toString h
  | minute m => "Invalid minute: " ++ toString m
  | second s => "Invalid second: " ++ toString s
  | millisecond ms => "Invalid millisecond: " ++ toString ms
  | offset seconds => "Invalid timezone offset: " ++ toString seconds
  | zone name => "Unknown timezone: " ++ name
  | millis ms => "Invalid millis: " ++ toString ms
  | tagName name => "Invalid tag name: " ++ Text.quote name
  | columnName name => "Invalid column name: " ++ Text.quote name
  | duplicateColumn name => "Duplicate column name: " ++ name
  | columnAfterRows => "Cannot add cols after rows have been added"
  | cellCount cells columns =>
    "Row cells size " ++ toString cells ++ " != cols size " ++ toString columns
  | noColumns => "Grid has no columns"
  | emptyPath => "Path has no segments"
  | pathSegment name => "Invalid path segment: " ++ Text.quote name
  | kind expected found => "expected " ++ expected ++ ", found " ++ found

end Violation

end TagGrid
