import TagGrid.Error
import TagGrid.Value.Basic

/-! # Zinc text of values

Every value has a text in version 3 of the Zinc format, which is also its text in
filters and messages. Version 2 has no symbols, lists and typed texts, and it does not
quote media types. The text also orders the values of a kind that has no order of its own.
-/

namespace TagGrid

/-! ## Quoted literals

Strings stand between double quotes and URIs between backquotes. In both, the closing
quote, the backslash and every control character below the space are written as
escapes, so a literal never holds a line end.
-/

namespace Zinc

/-- One character of a literal that `quote` closes. -/
def escapeChar (quote c : Char) : List Char :=
  if c = quote then ['\\', quote]
  else if c = '\\' then ['\\', '\\']
  else if c = '\n' then ['\\', 'n']
  else if c = '\r' then ['\\', 'r']
  else if c = '\t' then ['\\', 't']
  else if c = '\x08' then ['\\', 'b']
  else if c = '\x0c' then ['\\', 'f']
  else if c < ' ' then ['\\', 'u'] ++ Text.hex4 c.toNat
  else [c]

/-- A text between two quotes, escaped. -/
def literal (quote : Char) (cs : List Char) : List Char :=
  quote :: cs.flatMap (escapeChar quote) ++ [quote]

def strLiteral (s : String) : List Char := literal '"' s.toList

def uriLiteral (s : String) : List Char := literal '\x60' s.toList

end Zinc

/-! ## Values -/

/-- The versions of the Zinc format. -/
inductive Zinc.Version where
  | v2 | v3
  deriving Repr, DecidableEq

/-- The name of a version in the header of a grid. -/
def Zinc.Version.name : Zinc.Version → String
  | .v2 => "2.0"
  | .v3 => "3.0"

/-- Whether a version of the format has values of a kind. -/
def Zinc.Version.supports : Zinc.Version → Kind → Bool
  | .v2, .symbol | .v2, .list | .v2, .typed => false
  | _, _ => true

namespace Value

mutual

/-- The text of a value in version 3 of the Zinc format. -/
def zinc : Value → List Char
  | marker => ['M']
  | remove => ['R']
  | na => ['N', 'A']
  | bool true => ['T']
  | bool false => ['F']
  | number n => n.text
  | str s => Zinc.strLiteral s
  | uri s => Zinc.uriLiteral s
  | ref r => '@' :: r.id.toList ++ match r.dis with
    | some dis => ' ' :: Zinc.strLiteral dis
    | none => []
  | date d => d.text
  | time t => t.text
  | dateTime t => t.text
  | bin m => ['B', 'i', 'n', '('] ++ Zinc.strLiteral m.mime ++ [')']
  | coord c => c.text
  | symbol s => '^' :: s.name.toList
  | list items => '[' :: zincItems items ++ [']']
  | typed t => t.typeName.toList ++ '(' :: Zinc.strLiteral t.text ++ [')']

def zincItems : List Value → List Char
  | [] => []
  | [v] => zinc v
  | v :: w :: rest => zinc v ++ ',' :: zincItems (w :: rest)

end

def toZinc (v : Value) : String := String.ofList v.zinc

/-- The text of a value in a version of the format, or the error that it has none. -/
def zincIn? (version : Zinc.Version) (v : Value) : Except Error (List Char) :=
  if version.supports v.kind then
    match version, v with
    | .v2, bin m => .ok (['B', 'i', 'n', '('] ++ m.mime.toList ++ [')'])
    | _, v => .ok v.zinc
  else .error (.unsupportedType (v.kind.name ++ " cannot be written as Zinc 2.0"))

/-! ## The order of values

Values of one kind are ordered: numbers of the same unit by magnitude, dates and times
along the calendar, timestamps by instant, texts and names by their characters, and
everything else by its Zinc text. Values of different kinds do not compare.
-/

/-- Compares two values. There is no answer across kinds or units, nor for
not-a-number. -/
def compare? : Value → Value → Option Ordering
  | number a, number b => if a.unit = b.unit then a.value.compare? b.value else none
  | bool a, bool b => some (compare a b)
  | str a, str b => some (compare a b)
  | uri a, uri b => some (compare a b)
  | ref a, ref b => some (compare a.id b.id)
  | symbol a, symbol b => some (compare a.name b.name)
  | date a, date b => some (a.compare b)
  | time a, time b => some (a.compare b)
  | dateTime a, dateTime b => some (a.compare b)
  | a, b => if a.sameKind b then some (compare a.toZinc b.toZinc) else none

end Value

end TagGrid
