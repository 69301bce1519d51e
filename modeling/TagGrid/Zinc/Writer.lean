import TagGrid.Grid.Basic
import TagGrid.Zinc.ValueText

/-! # Writing the Zinc format

A grid is written as a header line with the version and the tags of the grid, a line
of columns, and a line for each row. A row without values is written as `N` in its
first cell, because an empty line would end the grid.
-/

namespace TagGrid.Zinc

/-! ## Text written up to a failure

Writing a grid goes on from left to right until a value has no text in the chosen
version. What was written before that value stays written. `Written` keeps both, and
putting two of them together drops everything after the first failure.
-/

/-- The text of a piece of output, and the failure that ended it early. -/
structure Written where
  text : List Char
  failure : Option Error
  deriving Repr, DecidableEq

namespace Written

def ofText (text : List Char) : Written := ⟨text, none⟩

/-- A text, or the failure to write any of it. -/
def ofResult : Except Error (List Char) → Written
  | .ok text => ⟨text, none⟩
  | .error e => ⟨[], some e⟩

/-- One piece after another; after a failure nothing follows. -/
def append (a b : Written) : Written :=
  match a.failure with
  | none => ⟨a.text ++ b.text, b.failure⟩
  | some e => ⟨a.text, some e⟩

instance : Append Written := ⟨append⟩

def concat (pieces : List Written) : Written := pieces.foldr append (ofText [])

def separated (separator : Char) : List Written → Written
  | [] => ofText []
  | [w] => w
  | w :: rest => w ++ ofText [separator] ++ separated separator rest

/-- The text of a piece that was written in full. -/
def toResult (w : Written) : Except Error (List Char) :=
  match w.failure with
  | none => .ok w.text
  | some e => .error e

end Written

/-! ## Tags, rows and grids -/

def writeValue (version : Version) (v : Value) : Written := .ofResult (v.zincIn? version)

/-- A tag: its name alone for a marker, else its name, a colon and its value. -/
def writeTag (version : Version) (name : TagName) (v : Value) : Written :=
  match v with
  | .marker => .ofText name.text.toList
  | v => .ofText (name.text.toList ++ [':']) ++ writeValue version v

def writeDict (version : Version) (d : Dict) : Written :=
  .separated ' ' (d.entries.map fun e => writeTag version e.1 e.2)

/-- The tags of a dictionary, each with a space before it. -/
def writeTags (version : Version) (d : Dict) : Written :=
  .concat (d.entries.map fun e => .ofText [' '] ++ writeTag version e.1 e.2)

/-- A column: its name and its tags. -/
def writeColumn (version : Version) (c : Column) : Written :=
  .ofText c.name.text.toList ++ writeTags version c.tags

/-- A cell; a blank one is empty. -/
def writeCell (version : Version) : Option Value → Written
  | none => .ofText []
  | some v => writeValue version v

def writeRow (version : Version) (cells : List (Option Value)) : Written :=
  let line :=
    if cells.all Option.isNone then
      .ofText ('N' :: List.replicate (cells.length - 1) ',')
    else .separated ',' (cells.map (writeCell version))
  line ++ .ofText ['\n']

def writeGrid (version : Version) (g : Grid) : Written :=
  .ofText ("ver:".toList ++ strLiteral version.name) ++ writeTags version g.tags ++
    .ofText ['\n'] ++ .separated ',' (g.columns.map (writeColumn version)) ++
    .ofText ['\n'] ++ .concat (g.rows.map (writeRow version))

/-- A writer collects what is written to it, one thing after another, in one version of
the format. -/
structure Writer where
  version : Version
  output : String
  deriving Repr

namespace Writer

/-- The writer to which nothing was written yet. -/
def new (version : Version) : Writer := ⟨version, ""⟩

/-- Adds a piece of output, or as much of it as was written before it failed. -/
def push (w : Writer) (piece : Written) : Except Error Unit × Writer :=
  (piece.toResult.map fun _ => (), { w with output := w.output ++ String.ofList piece.text })

def grid (w : Writer) (g : Grid) : Except Error Unit × Writer := w.push (writeGrid w.version g)

def dict (w : Writer) (d : Dict) : Except Error Unit × Writer := w.push (writeDict w.version d)

def scalar (w : Writer) (v : Value) : Except Error Unit × Writer :=
  w.push (writeValue w.version v)

end Writer

/-- The text of a grid in a version of the format. -/
def ofGrid? (version : Version) (g : Grid) : Except Error String :=
  (writeGrid version g).toResult.map String.ofList

/-- The text of a dictionary in a version of the format. -/
def ofDict? (version : Version) (d : Dict) : Except Error String :=
  (writeDict version d).toResult.map String.ofList

/-- The text of a value in a version of the format. -/
def ofValue? (version : Version) (v : Value) : Except Error String :=
  (v.zincIn? version).map String.ofList

/-- Writes a grid into a space of so many bytes: the outcome and the number of bytes
that were filled. -/
def fillBytes (capacity : Nat) (g : Grid) : Except Error Unit × Nat :=
  match ofGrid? .v3 g with
  | .ok text =>
    if text.utf8ByteSize ≤ capacity then (.ok (), text.utf8ByteSize)
    else (.error (.io "failed to write whole buffer"), capacity)
  | .error e => (.error e, 0)

end TagGrid.Zinc
