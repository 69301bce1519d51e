import TagGrid.Calendar.Timestamp
import TagGrid.Value.Contents

/-! # Values

The values that a tag or a cell can have. Absence is not a value: a blank cell is
`none`. Values are equal in two senses: `=` compares them field by field, and
`Value.same` is the equality of the data model, which overlooks the display text of
refs and the sign of zero.
-/

namespace TagGrid

/-- A value of a tag or a cell. -/
inductive Value where
  | marker
  | remove
  | na
  | bool (b : Bool)
  | number (n : Number)
  | str (s : String)
  | uri (s : String)
  | ref (r : Ref)
  | date (d : Date)
  | time (t : TimeOfDay)
  | dateTime (t : Timestamp)
  | bin (m : MediaType)
  | coord (c : Coord)
  | symbol (s : Symbol)
  | list (items : List Value)
  | typed (t : TypedText)
  deriving Repr

/-- The kinds of value. -/
inductive Kind where
  | marker | remove | na | bool | number | str | uri | ref
  | date | time | dateTime | bin | coord | symbol | list | typed
  deriving Repr, DecidableEq

def Kind.name : Kind → String
  | .marker => "Marker" | .remove => "Remove" | .na => "NA" | .bool => "Bool"
  | .number => "Number" | .str => "Str" | .uri => "Uri" | .ref => "Ref"
  | .date => "Date" | .time => "Time" | .dateTime => "DateTime" | .bin => "Bin"
  | .coord => "Coord" | .symbol => "Symbol" | .list => "List" | .typed => "XStr"

namespace Value

def kind : Value → Kind
  | marker => .marker | remove => .remove | na => .na | bool _ => .bool
  | number _ => .number | str _ => .str | uri _ => .uri | ref _ => .ref
  | date _ => .date | time _ => .time | dateTime _ => .dateTime | bin _ => .bin
  | coord _ => .coord | symbol _ => .symbol | list _ => .list | typed _ => .typed

def sameKind (a b : Value) : Bool := a.kind == b.kind

mutual

/-- The equality of the data model. Values of different kinds are never equal. -/
def same : Value → Value → Bool
  | marker, marker => true
  | remove, remove => true
  | na, na => true
  | bool a, bool b => a == b
  | number a, number b => a.same b
  | str a, str b => a == b
  | uri a, uri b => a == b
  | ref a, ref b => a.same b
  | date a, date b => a == b
  | time a, time b => a == b
  | dateTime a, dateTime b => a == b
  | bin a, bin b => a == b
  | coord a, coord b => a == b
  | symbol a, symbol b => a == b
  | list a, list b => sameItems a b
  | typed a, typed b => a == b
  | _, _ => false

/-- Item by item, and equally many of them. -/
def sameItems : List Value → List Value → Bool
  | [], [] => true
  | a :: as, b :: bs => same a b && sameItems as bs
  | _, _ => false

end

def ofDouble (x : Double) : Value := number (.plain x)

def ofInt (i : Int) : Value := ofDouble (.ofInt i)

/-- The truth value of a `Bool`. -/
def bool? : Value → Option Bool
  | bool b => some b
  | _ => none

/-- The number of a `Number`. -/
def number? : Value → Option Number
  | number n => some n
  | _ => none

/-- The magnitude of a `Number`, without its unit. -/
def double? (v : Value) : Option Double := v.number?.map Number.value

/-- The text of a `Str`. -/
def str? : Value → Option String
  | str s => some s
  | _ => none

/-- The text of a `Uri`. -/
def uri? : Value → Option String
  | uri s => some s
  | _ => none

/-- The ref of a `Ref`. -/
def ref? : Value → Option Ref
  | ref r => some r
  | _ => none

/-- The date of a `Date`. -/
def date? : Value → Option Date
  | date d => some d
  | _ => none

/-- The time of a `Time`. -/
def time? : Value → Option TimeOfDay
  | time t => some t
  | _ => none

/-- The timestamp of a `DateTime`. -/
def dateTime? : Value → Option Timestamp
  | dateTime t => some t
  | _ => none

/-- The coordinate of a `Coord`. -/
def coord? : Value → Option Coord
  | coord c => some c
  | _ => none

/-- The items of a `List`. -/
def list? : Value → Option (List Value)
  | list items => some items
  | _ => none

/-- The contents that `get?` finds in a value, or the complaint that it is of another
kind than `expected`. -/
def require {α : Type} (expected : Kind) (get? : Value → Option α) (v : Value) :
    Except Violation α :=
  match get? v with
  | some a => .ok a
  | none => .error (.kind expected.name v.kind.name)

/-- The magnitude of a value that must be a number. -/
def toDouble? : Value → Except Violation Double := require .number double?

/-- The truth value of a value that must be a boolean. -/
def toBool? : Value → Except Violation Bool := require .bool bool?

/-- The text of a value that must be a string. -/
def toStr? : Value → Except Violation String := require .str str?

end Value

end TagGrid
