import TagGrid.Grid.Basic
import TagGrid.Json.Tree
import TagGrid.Zinc.ValueText

/-! # Values, dictionaries and grids as JSON

Booleans and lists are JSON booleans and arrays. Every other value is a string whose
first character tells its kind and whose second is a colon; a string value is written
bare unless its own second character is a colon. A grid is an object with its tags,
its columns and its rows.
-/

namespace TagGrid

/-- Whether a text looks like an encoded value: a character of ASCII and a colon. -/
def Json.looksEncoded : List Char → Bool
  | c :: ':' :: _ => c.toNat < 128
  | _ => false

def Json.version : String := "3.0"

namespace Value

/-- The text that stands for a value other than a list. -/
def jsonChars : Value → List Char
  | marker => ['m', ':']
  | remove => ['-', ':']
  | na => ['z', ':']
  | bool true => "true".toList
  | bool false => "false".toList
  | number n => ['n', ':'] ++ n.value.text ++ match n.unit with
    | some unit => ' ' :: unit.toList
    | none => []
  | str s => if Json.looksEncoded s.toList then ['s', ':'] ++ s.toList else s.toList
  | uri s => ['u', ':'] ++ s.toList
  | ref r => ['r', ':'] ++ r.id.toList ++ match r.dis with
    | some dis => ' ' :: dis.toList
    | none => []
  | date d => ['d', ':'] ++ d.text
  | time t => ['h', ':'] ++ t.text
  | dateTime t => ['t', ':'] ++ t.text
  | bin m => ['b', ':'] ++ m.mime.toList
  | coord c => ['c', ':'] ++ c.pairText
  | symbol s => ['y', ':'] ++ s.name.toList
  | typed t => ['x', ':'] ++ t.typeName.toList ++ ':' :: t.text.toList
  | list items => (list items).zinc

mutual

def toJson : Value → Json
  | bool b => .bool b
  | list items => .array (toJsonItems items)
  | v => .str (String.ofList v.jsonChars)

def toJsonItems : List Value → List Json
  | [] => []
  | v :: rest => toJson v :: toJsonItems rest

end

end Value

def Json.ofTags (tags : List (TagName × Value)) : List (String × Json) :=
  tags.map fun e => (e.1.text, e.2.toJson)

def Dict.toJson (d : Dict) : Json := .object (Json.setMembers [] (Json.ofTags d.entries))

/-- A column as JSON: its name and its tags. -/
def Column.toJson (c : Column) : Json :=
  .object (Json.setMembers [("name", .str c.name.text)] (Json.ofTags c.tags.entries))

/-- A row as JSON, blank cells left out. -/
def Row.toJson (r : Row) : Json := .object (Json.setMembers [] (Json.ofTags r.tags))

def Grid.toJson (g : Grid) : Json :=
  .object [
    ("meta", .object (Json.setMembers [("ver", .str Json.version)] (Json.ofTags g.tags.entries))),
    ("cols", .array (g.columns.map Column.toJson)),
    ("rows", .array (g.rowViews.map Row.toJson))]

/-! ## Serializing part by part

A value or a dictionary can be handed part by part to a serializer, which makes of it what
it wants: JSON text in one pass, or a JSON tree. A boolean and a list are handed over as
such, every other value as the string that stands for it.
-/

/-- What is made of the parts of data. -/
structure Serializer (α : Type) where
  bool : Bool → α
  str : String → α
  /-- A list, of what was made of its items. -/
  sequence : List α → α
  /-- A dictionary, of its names and what was made of the values under them, in order. -/
  map : List (String × α) → α

namespace Value

mutual

def serialize {α : Type} (s : Serializer α) : Value → α
  | bool b => s.bool b
  | list items => s.sequence (serializeItems s items)
  | v => s.str (String.ofList v.jsonChars)

def serializeItems {α : Type} (s : Serializer α) : List Value → List α
  | [] => []
  | v :: rest => serialize s v :: serializeItems s rest

end

end Value

def Dict.serialize {α : Type} (s : Serializer α) (d : Dict) : α :=
  s.map (d.entries.map fun e => (e.1.text, e.2.serialize s))

namespace Json

/-- Makes compact JSON text. -/
def textSerializer : Serializer (List Char) where
  bool b := (if b then "true" else "false").toList
  str := strText
  sequence items := '[' :: [','].intercalate items ++ [']']
  map members :=
    '\x7b' :: [','].intercalate (members.map fun m => strText m.1 ++ ':' :: m.2) ++ ['\x7d']

/-- Makes a JSON tree, adding member after member to an object. -/
def treeSerializer : Serializer Json where
  bool := .bool
  str := .str
  sequence := .array
  map members := .object (setMembers [] members)

end Json

def Value.toJsonText (v : Value) : String := String.ofList (v.serialize Json.textSerializer)

def Dict.toJsonText (d : Dict) : String := String.ofList (d.serialize Json.textSerializer)

end TagGrid
