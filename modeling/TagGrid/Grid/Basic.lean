import TagGrid.Dict.Draft

/-! # Grids

A grid is a table of values: tags of its own, columns with names and tags, and rows
with one cell for each column. A blank cell holds nothing, and a row read through the
names of its columns is like a dictionary.
-/

namespace TagGrid

/-- A column of a grid. -/
structure Column where
  name : TagName
  tags : Dict
  deriving Repr

namespace Column

/-- The text to display for a column: its `dis` tag if that is a string, else its name. -/
def dis (c : Column) : String := ((c.tags.get? "dis").bind Value.str?).getD c.name.text

/-- Whether two columns have the same name and equal tags. -/
def same (a b : Column) : Bool := a.name == b.name && a.tags.same b.tags

end Column

/-- A row of a grid, seen with the columns that name its cells. -/
structure Row where
  columns : List Column
  cells : List (Option Value)
  deriving Repr

namespace Row

/-- The tags of a row in the order of the columns, blank cells left out. -/
def tags (r : Row) : List (TagName × Value) :=
  (r.columns.zip r.cells).filterMap fun (column, cell) => cell.map (column.name, ·)

def get? (r : Row) (name : String) : Option Value :=
  ((r.columns.zip r.cells).find? fun (column, _) => column.name.text == name).bind Prod.snd

/-- The value in the column of a name, which must be there. -/
def require (r : Row) (name : String) : Except Error Value :=
  match r.get? name with
  | some value => .ok value
  | none => .error (.unknownName name)

/-- The value in a cell, counted from zero. -/
def cell? (r : Row) (index : Nat) : Option Value := r.cells[index]?.join

def has (r : Row) (name : String) : Bool := (r.get? name).isSome

def size (r : Row) : Nat := r.cells.countP Option.isSome

def isEmpty (r : Row) : Bool := r.cells.all Option.isNone

/-- The ref in the `id` column. -/
def id? (r : Row) : Option Ref := (r.get? "id").bind Value.ref?

def toDict (r : Row) : Dict := r.tags.foldl (fun d e => d.set e.1 e.2) .empty

/-- Whether two rows have the same tags with equal values, whatever their columns. -/
def same (a b : Row) : Bool :=
  a.size == b.size && a.tags.all fun e =>
    match b.get? e.1.text with
    | some value => e.2.same value
    | none => false

end Row

/-- A table of values. -/
structure Grid where
  tags : Dict
  columns : List Column
  /-- The cells of each row, one for each column. -/
  rows : List (List (Option Value))
  nonempty : columns ≠ []
  distinct : (columns.map Column.name).Nodup
  rectangular : ∀ cells ∈ rows, cells.length = columns.length
  deriving Repr

namespace Grid

/-- The only column, `empty`, of a grid that has nothing to show. -/
def emptyColumn : Column := ⟨⟨"empty", by decide⟩, .empty⟩

/-- The grid with one column, `empty`, and no rows. -/
def empty : Grid where
  tags := .empty
  columns := [emptyColumn]
  rows := []
  nonempty := by simp
  distinct := by simp
  rectangular := by simp

/-- The rows, each with the columns. -/
def rowViews (g : Grid) : List Row := g.rows.map fun cells => ⟨g.columns, cells⟩

/-- The row at a place counted from zero. -/
def row? (g : Grid) (index : Nat) : Option Row :=
  g.rows[index]?.map fun cells => ⟨g.columns, cells⟩

def column? (g : Grid) (name : String) : Option Column :=
  g.columns.find? fun c => c.name.text == name

/-- The column of a name, which must be there. -/
def requireColumn (g : Grid) (name : String) : Except Error Column :=
  match g.column? name with
  | some column => .ok column
  | none => .error (.unknownName name)

/-- The first row whose `id` names the same record as a ref. -/
def findByRef? (g : Grid) (ref : Ref) : Option Row :=
  g.rowViews.find? fun row => row.id?.any ref.same

/-- The first row whose `id` names the same record as a ref, which must be there. -/
def requireByRef (g : Grid) (ref : Ref) : Except Error Row :=
  match g.findByRef? ref with
  | some row => .ok row
  | none => .error (.unknownRec ref.id)

/-- The id of the watch that a grid belongs to: its `watchId` tag, a string. -/
def watchId (g : Grid) : Except Error String :=
  match (g.tags.get? "watchId").bind Value.str? with
  | some id => .ok id
  | none => .error (.unknownWatch "grid meta has no watchId")

def toDicts (g : Grid) : List Dict := g.rowViews.map Row.toDict

/-- Whether two lists are equally long and related item by item. -/
def pairwise {α : Type} (related : α → α → Bool) (xs ys : List α) : Bool :=
  xs.length == ys.length && (xs.zip ys).all fun (x, y) => related x y

/-- Whether two grids are equal: their tags, their columns in order, and their rows in
order. -/
def same (a b : Grid) : Bool :=
  a.tags.same b.tags && pairwise Column.same a.columns b.columns &&
    pairwise Row.same a.rowViews b.rowViews

end Grid

/-! ## Columns under their names

A finished grid keeps its columns in a table under their names, in their order, and every
column there knows its place.
-/

/-- A column with its place in the grid, counted from zero. -/
structure PlacedColumn extends Column where
  index : Nat
  deriving Repr

/-- A numbered column under its name. -/
def PlacedColumn.entry (numbered : Column × Nat) : TagName × PlacedColumn :=
  (numbered.1.name, ⟨numbered.1, numbered.2⟩)

namespace Grid

/-- The columns as they are numbered, each put under its name. -/
def columnTable (g : Grid) : List (TagName × PlacedColumn) :=
  (g.columns.zipIdx.map PlacedColumn.entry).foldl (fun table e => putEntry e.1 e.2 table) []

def columnNamed? (g : Grid) (name : String) : Option PlacedColumn :=
  (g.columnTable.find? fun e => e.1.text == name).map Prod.snd

def columnAt? (g : Grid) (index : Nat) : Option PlacedColumn :=
  g.columnTable[index]?.map Prod.snd

end Grid

end TagGrid
