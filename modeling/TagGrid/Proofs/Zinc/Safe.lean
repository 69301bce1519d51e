import TagGrid.Grid.Basic

/-! # Values that survive their text

A few values have a text that is read as something else: a date after the year 9999 does
not fit its places, a unit can look like an exponent or like the mark of a hexadecimal
number, and a type name can be a keyword. The values without these are the safe ones.
-/

namespace TagGrid

/-- A unit is taken for a part of the number if it continues `0` to `0x`, or if it starts
like a negative exponent. -/
def Number.zincSafe (n : Number) : Bool :=
  match n.unit with
  | none => true
  | some unit =>
    !(n.value == .zero false && ['x'].isPrefixOf unit.toList) &&
      !(['e', '-'].isPrefixOf unit.toList) && !(['E', '-'].isPrefixOf unit.toList)

/-- The words that the reader does not take for the name of a type. -/
def Zinc.reservedWords : List (List Char) :=
  [['N'], ['M'], ['R'], ['N', 'A'], ['T'], ['F'], ['N', 'a', 'N'], ['I', 'N', 'F'],
   ['B', 'i', 'n'], ['C']]

def TypedText.zincSafe (t : TypedText) : Bool :=
  !Zinc.reservedWords.contains t.typeName.toList

/-- The last year that four digits can write. -/
def Date.yearFits (d : Date) : Bool := d.year ≤ 9999

namespace Value

mutual

/-- Whether a property holds of a value, or of all that a list holds at any depth. -/
def everywhere (p : Value → Bool) : Value → Bool
  | list items => everyItem p items
  | v => p v

def everyItem (p : Value → Bool) : List Value → Bool
  | [] => true
  | v :: rest => everywhere p v && everyItem p rest

end

/-- Whether the year of a date or a timestamp has at most four digits. -/
def yearFits : Value → Bool
  | date d => d.yearFits
  | dateTime t => t.date.yearFits
  | _ => true

/-- No year above 9999 at any depth. -/
def yearsFit (v : Value) : Bool := v.everywhere yearFits

/-- Whether the number or the type name of a value is read as such. -/
def wordSafe : Value → Bool
  | number n => n.zincSafe
  | typed t => t.zincSafe
  | _ => true

/-- The values whose text is read as themselves. -/
def zincSafe (v : Value) : Bool := v.everywhere fun v => v.yearFits && v.wordSafe

end Value

/-- A list of values whose texts are easily mistaken: a negative zero with a unit that starts
with an x, a ref with a text, and in a list of its own the last day that fits, a string with
brackets and a typed text. -/
def Value.sample : Value :=
  .list
    [.number ⟨.zero true, some "xyz", by rintro u hu; cases hu; exact ⟨by decide, rfl⟩⟩,
     .ref ⟨"a-1", some "and, \"or\"", by decide⟩, .number (.plain (.infinity true)),
     .list [.date ⟨9999, 12, 31, by decide⟩, .str "]\n[", .typed ⟨"Span", "a)b", by decide⟩]]

/-- Whether all values of a dictionary have a property. -/
def Dict.everyValue (p : Value → Bool) (d : Dict) : Bool := d.entries.all fun e => p e.2

/-- The sample list and a marker as tags. -/
def Dict.sample : Dict :=
  (Dict.empty.set ⟨"val", by decide⟩ .sample).set ⟨"site", by decide⟩ .marker

/-- Whether all values of a grid have a property: its tags, those of its columns, and its
cells. -/
def Grid.everyValue (p : Value → Bool) (g : Grid) : Bool :=
  g.tags.everyValue p && g.columns.all (fun c => c.tags.everyValue p) &&
    g.rows.all fun cells => cells.all fun cell => cell.all p

/-- A grid with the sample tags for itself and for a column, a row without values and rows
with blank cells first and last. -/
def Grid.sample : Grid where
  tags := .sample
  columns := [⟨⟨"id", by decide⟩, .empty⟩, ⟨⟨"ver", by decide⟩, .sample⟩]
  rows := [[none, none], [none, some .sample], [some .marker, none]]
  nonempty := by simp
  distinct := by decide
  rectangular := by simp

end TagGrid
