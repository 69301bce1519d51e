import TagGrid.Filter.Path
import TagGrid.Grid.Basic
import TagGrid.Zinc.ValueText

/-! # Filters

A filter asks whether a record has certain tags and whether they compare with given
values. Records are dictionaries and rows; refs are followed with the help of a
resolver, which finds a record by its id.
-/

namespace TagGrid

/-- The comparisons of a filter. -/
inductive Relation where
  | eq | ne | lt | le | gt | ge
  deriving Repr, DecidableEq

/-- A filter over records. -/
inductive Filter where
  | has (path : Path)
  | missing (path : Path)
  /-- The path leads to a value that compares so with another. -/
  | compare (relation : Relation) (path : Path) (value : Value)
  | and (left right : Filter)
  | or (left right : Filter)
  deriving Repr

/-- Things that can be asked for the value of a tag. -/
class Tagged (α : Type) where
  tag? : α → String → Option Value

instance : Tagged Dict := ⟨Dict.get?⟩

instance : Tagged Row := ⟨Row.get?⟩

/-- A way to find the record that a ref names. -/
abbrev Resolver := Ref → Option Dict

namespace Resolver

/-- The resolver that finds nothing. -/
def none : Resolver := fun _ => Option.none

/-- The resolver that looks an id up in a table, of which the last entry counts. -/
def ofTable (table : List (String × Dict)) : Resolver := fun ref =>
  (table.reverse.find? fun e => e.1 == ref.id).map Prod.snd

/-- The record that a ref names, which must be there. -/
def require (resolver : Resolver) (ref : Ref) : Except Error Dict :=
  match resolver ref with
  | some record => .ok record
  | .none => .error (.unknownRec ref.id)

end Resolver

namespace Path

/-- Follows segments from a value that must be a ref, if there are any. -/
def follow (resolver : Resolver) (value : Value) : List String → Option Value
  | [] => some value
  | segment :: rest => do
    let record ← resolver (← value.ref?)
    follow resolver (← record.get? segment) rest

def resolve {α : Type} [Tagged α] (p : Path) (record : α) (resolver : Resolver) : Option Value :=
  match p.segments with
  | [] => none
  | first :: rest => do follow resolver (← Tagged.tag? record first) rest

end Path

/-- Whether a comparison holds of a value found and a value given. Values of different
kinds never compare, not even as unequal. -/
def Relation.holds (relation : Relation) (found given : Value) : Bool :=
  match relation with
  | .eq => found.same given
  | .ne => found.sameKind given && !found.same given
  | .lt => found.compare? given == some .lt
  | .le => (found.compare? given).any (· != .gt)
  | .gt => found.compare? given == some .gt
  | .ge => (found.compare? given).any (· != .lt)

namespace Filter

def isCompound : Filter → Bool
  | .and .. | .or .. => true
  | _ => false

def includes {α : Type} [Tagged α] (record : α) (resolver : Resolver) : Filter → Bool
  | has path => (path.resolve record resolver).isSome
  | missing path => (path.resolve record resolver).isNone
  | compare relation path value =>
    (path.resolve record resolver).any fun found => relation.holds found value
  | and left right => left.includes record resolver && right.includes record resolver
  | or left right => left.includes record resolver || right.includes record resolver

/-- Whether two filters have the same shape, the same paths and equal values. -/
def same : Filter → Filter → Bool
  | has p, has q => p == q
  | missing p, missing q => p == q
  | compare r p v, compare s q w => r == s && p == q && v.same w
  | and a b, and c d => a.same c && b.same d
  | or a b, or c d => a.same c && b.same d
  | _, _ => false

end Filter

/-! ## Text

A filter is written so that it can be read again: an operand that is itself joined by
`and` or `or` stands in parentheses, and the booleans are the words `true` and `false`.
-/

def Relation.sign : Relation → List Char
  | .eq => ['=', '=']
  | .ne => ['!', '=']
  | .lt => ['<']
  | .le => ['<', '=']
  | .gt => ['>']
  | .ge => ['>', '=']

namespace Filter

def literal : Value → List Char
  | .bool true => "true".toList
  | .bool false => "false".toList
  | v => v.zinc

/-- The text of an operand of `and` or `or`. -/
def enclosed (f : Filter) (text : List Char) : List Char :=
  if f.isCompound then '(' :: text ++ [')'] else text

def text : Filter → List Char
  | has path => path.text
  | missing path => "not ".toList ++ path.text
  | compare relation path value =>
    path.text ++ ' ' :: relation.sign ++ ' ' :: literal value
  | and left right => enclosed left left.text ++ " and ".toList ++ enclosed right right.text
  | or left right => enclosed left left.text ++ " or ".toList ++ enclosed right right.text

end Filter

end TagGrid
