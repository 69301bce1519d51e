import TagGrid.Double.Shortest
import TagGrid.Text

/-! # JSON trees and their text

A JSON value as a tree. The members of an object keep the order in which their names
first appeared, and numbers are integers of 64 bits or doubles.
-/

namespace TagGrid

/-- A number of a JSON tree. -/
inductive JsonNumber where
  /-- An integer that fits into 64 bits, with or without a sign. -/
  | integer (i : Int)
  | float (x : Double)
  deriving Repr, DecidableEq

/-- A JSON value. -/
inductive Json where
  | null
  | bool (b : Bool)
  | number (n : JsonNumber)
  | str (s : String)
  | array (items : List Json)
  | object (members : List (String × Json))
  deriving Repr

def JsonNumber.toDouble : JsonNumber → Double
  | integer i => .ofInt i
  | float x => x

namespace Json

def member? (members : List (String × Json)) (name : String) : Option Json :=
  (members.find? fun m => m.1 == name).map Prod.snd

/-- Gives a member a value: in its place if there is one of the name, else at the end. -/
def setMember (members : List (String × Json)) (name : String) (value : Json) :
    List (String × Json) :=
  if members.any fun m => m.1 == name then
    members.map fun m => if m.1 == name then (name, value) else m
  else members ++ [(name, value)]

def setMembers (members added : List (String × Json)) : List (String × Json) :=
  added.foldl (fun acc m => setMember acc m.1 m.2) members

end Json

/-! ## Text

JSON is written compactly or indented by two spaces. Strings escape quotes,
backslashes and control characters below the space and leave everything else as it is.
A double is written with its shortest digits, a tie going to the even one: plainly with
a point when the point falls among the first sixteen digits or at most four places
before them, else with an exponent, which has its sign, also when that is plus.
-/

def Decimal.jsonText (d : Decimal) : List Char :=
  let ds := Decimal.digits d.coefficient
  let point : Int := ds.length + d.exponent
  if 0 ≤ d.exponent ∧ point ≤ 16 then d.plain ++ ['.', '0']
  else if -5 < point ∧ point ≤ 16 then d.plain
  else
    let fraction := ds.drop 1
    let plus := if 0 < point then ['+'] else []
    ds.take 1 ++ (if fraction = [] then [] else '.' :: fraction) ++
      'e' :: plus ++ (toString (point - 1)).toList

/-- A finite double in the layout of JSON; what is not finite has no such text. -/
def Double.jsonText : Double → List Char
  | .finite negative grains storable =>
    (if negative then ['-'] else []) ++
      if grains = 0 then "0.0".toList else (Double.shortest .even grains storable).jsonText
  | _ => "null".toList

def JsonNumber.text : JsonNumber → List Char
  | integer i => (toString i).toList
  | float x => x.jsonText

namespace Json

def escapeChar (c : Char) : List Char :=
  if c = '"' then ['\\', '"']
  else if c = '\\' then ['\\', '\\']
  else if c = '\x08' then ['\\', 'b']
  else if c = '\x0c' then ['\\', 'f']
  else if c = '\n' then ['\\', 'n']
  else if c = '\r' then ['\\', 'r']
  else if c = '\t' then ['\\', 't']
  else if c < ' ' then ['\\', 'u'] ++ Text.hex4 c.toNat
  else [c]

def strText (s : String) : List Char := '"' :: s.toList.flatMap escapeChar ++ ['"']

mutual

def text : Json → List Char
  | null => "null".toList
  | bool true => "true".toList
  | bool false => "false".toList
  | number n => n.text
  | str s => strText s
  | array items => '[' :: itemsText items ++ [']']
  | object members => '\x7b' :: membersText members ++ ['\x7d']

def itemsText : List Json → List Char
  | [] => []
  | [item] => text item
  | item :: next :: rest => text item ++ ',' :: itemsText (next :: rest)

def membersText : List (String × Json) → List Char
  | [] => []
  | [(name, value)] => strText name ++ ':' :: text value
  | (name, value) :: next :: rest =>
    strText name ++ ':' :: text value ++ ',' :: membersText (next :: rest)

end

def newLine (depth : Nat) : List Char := '\n' :: List.replicate (2 * depth) ' '

mutual

/-- The text of a tree inside so many others, a line for each item and member. Empty
arrays and objects stay on one line. -/
def indentedText (depth : Nat) : Json → List Char
  | array [] => ['[', ']']
  | array (item :: rest) =>
    '[' :: indentedItems (depth + 1) (item :: rest) ++ newLine depth ++ [']']
  | object [] => ['\x7b', '\x7d']
  | object (member :: rest) =>
    '\x7b' :: indentedMembers (depth + 1) (member :: rest) ++ newLine depth ++ ['\x7d']
  | null => text null
  | bool b => text (bool b)
  | number n => text (number n)
  | str s => text (str s)

def indentedItems (depth : Nat) : List Json → List Char
  | [] => []
  | [item] => newLine depth ++ indentedText depth item
  | item :: next :: rest =>
    newLine depth ++ indentedText depth item ++ ',' :: indentedItems depth (next :: rest)

def indentedMembers (depth : Nat) : List (String × Json) → List Char
  | [] => []
  | [(name, value)] =>
    newLine depth ++ strText name ++ [':', ' '] ++ indentedText depth value
  | (name, value) :: next :: rest =>
    newLine depth ++ strText name ++ [':', ' '] ++ indentedText depth value ++
      ',' :: indentedMembers depth (next :: rest)

end

def compact (j : Json) : String := String.ofList j.text

def pretty (j : Json) : String := String.ofList (j.indentedText 0)

end Json

end TagGrid
