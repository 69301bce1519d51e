import TagGrid.Grid.Basic

/-! # Building a grid

A draft takes columns first and rows after them, and becomes a grid once it has a
column. Every draft is rectangular and has distinct columns at all times, so only the
additions can be refused.
-/

namespace TagGrid

/-- A grid under construction. -/
structure GridDraft where
  tags : Dict
  columns : List Column
  rows : List (List (Option Value))
  distinct : (columns.map Column.name).Nodup
  rectangular : ∀ cells ∈ rows, cells.length = columns.length

namespace GridDraft

/-- The draft with nothing in it. -/
def empty : GridDraft := ⟨.empty, [], [], .nil, by simp⟩

def setTags (b : GridDraft) (tags : Dict) : GridDraft := { b with tags }

/-- Adds a column without tags at the right. There must be no rows yet, and the name
must be a tag name that no other column has. -/
def addColumn? (b : GridDraft) (name : String) : Except Violation GridDraft :=
  if hr : b.rows = [] then
    if hv : isTagName name.toList = true then
      let column : Column := ⟨⟨name, hv⟩, .empty⟩
      if hd : column.name ∈ b.columns.map Column.name then .error (.duplicateColumn name)
      else .ok {
        tags := b.tags
        columns := b.columns ++ [column]
        rows := []
        distinct := by
          rw [List.map_append]
          refine List.nodup_append.2 ⟨b.distinct, by simp, ?_⟩
          rintro a ha c hc rfl
          simp only [List.map_cons, List.map_nil, List.mem_singleton] at hc
          exact hd (hc ▸ ha)
        rectangular := by simp }
    else .error (.columnName name)
  else .error .columnAfterRows

def updateColumn (name : String) (change : Dict → Dict) (c : Column) : Column :=
  if c.name.text = name then { c with tags := change c.tags } else c

theorem name_updateColumn (name : String) (change : Dict → Dict) (c : Column) :
    (updateColumn name change c).name = c.name := by
  unfold updateColumn
  split <;> rfl

def setColumnTags (b : GridDraft) (column : String) (tags : Dict) : GridDraft where
  tags := b.tags
  columns := b.columns.map (updateColumn column fun _ => tags)
  rows := b.rows
  distinct := by
    have h : Column.name ∘ updateColumn column (fun _ => tags) = Column.name :=
      funext (name_updateColumn _ _)
    rw [List.map_map, h]
    exact b.distinct
  rectangular := by simpa using b.rectangular

/-- Adds a row at the bottom; it must have one cell for each column. -/
def addRow? (b : GridDraft) (cells : List (Option Value)) : Except Violation GridDraft :=
  if h : cells.length = b.columns.length then
    .ok { b with
      rows := b.rows ++ [cells]
      rectangular := by
        intro row hrow
        rcases List.mem_append.1 hrow with hrow | hrow
        · exact b.rectangular row hrow
        · exact List.mem_singleton.1 hrow ▸ h }
  else .error (.cellCount cells.length b.columns.length)

/-- Adds the tags of a dictionary as a row; tags without a column are left out. -/
def addDictRow? (b : GridDraft) (d : Dict) : Except Violation GridDraft :=
  b.addRow? (b.columns.map fun c => d.get? c.name.text)

/-- The finished grid; it must have a column. -/
def build? (b : GridDraft) : Except Violation Grid :=
  if h : b.columns = [] then .error .noColumns
  else .ok ⟨b.tags, b.columns, b.rows, h, b.distinct, b.rectangular⟩

/-- The finished grid, or the empty grid in its place. -/
def buildOrEmpty (b : GridDraft) : Grid :=
  match b.build? with
  | .ok g => g
  | .error _ => .empty

end GridDraft

/-! ## Calls

What can be asked of a draft, one call after another. A call that is refused changes
nothing.
-/

namespace GridDraft

/-- A call of a draft that can change it. -/
inductive Call where
  /-- A call of the draft of the grid's own tags. -/
  | tags (call : DictDraft.Call)
  | setTags (tags : Dict)
  /-- Declares a column, and then calls the draft of its tags. -/
  | column (name : String) (calls : List DictDraft.Call)
  | row (cells : List (Option Value))
  | dictRow (tags : Dict)
  deriving Repr

/-- Declares a column whose tags are those of a finished draft. -/
def declare? (b : GridDraft) (name : String) (tags : DictDraft) : Except Violation GridDraft := do
  return (← b.addColumn? name).setColumnTags name tags.freeze

/-- What a call answers, and the draft after it. -/
def perform (b : GridDraft) : Call → Except Violation (Option Value) × GridDraft
  | .tags call =>
    let result := (DictDraft.ofDict b.tags).perform call
    (result.1, b.setTags result.2.freeze)
  | .setTags tags => (.ok none, b.setTags tags)
  | .column name calls => settle b (b.declare? name (DictDraft.empty.run calls))
  | .row cells => settle b (b.addRow? cells)
  | .dictRow tags => settle b (b.addDictRow? tags)

/-- The draft after calls made one after another. -/
def run (b : GridDraft) (calls : List Call) : GridDraft :=
  calls.foldl (fun b call => (b.perform call).2) b

/-- The calls that declare columns without tags and add rows below them. -/
def fill (names : List TagName) (rows : List (List (Option Value))) : List Call :=
  names.map (fun name => .column name.text []) ++ rows.map .row

end GridDraft

namespace Grid

/-! ## Grids of dictionaries

A list of dictionaries becomes a grid whose columns are the names of all their tags:
`id` first, `mod` last, and the others in order between them.
-/

/-- Puts the names `id` and `mod` at the ends. -/
def columnOrder (names : List TagName) : List TagName :=
  names.filter (·.text == "id") ++ names.filter (fun n => n.text != "id" && n.text != "mod") ++
    names.filter (·.text == "mod")

/-- The names of the tags that any of the dictionaries has. -/
def unionNames (dicts : List (Option Dict)) : List TagName :=
  (dicts.foldl (fun acc d => acc.addAll (d.getD .empty)) Dict.empty).names

/-- The columns for dictionaries; without any tags there is the one column `empty`. -/
def columnNames (dicts : List (Option Dict)) : List TagName :=
  if (columnOrder (unionNames dicts)).isEmpty then [emptyColumn.name]
  else columnOrder (unionNames dicts)

/-- The cells of a dictionary below columns; the row of an absent one is blank. -/
def dictCells (names : List TagName) (d : Option Dict) : List (Option Value) :=
  names.map fun name => d.bind (·.get? name.text)

/-- The grid with a row for each dictionary. Calls that are refused and a draft that cannot
be finished are passed over. -/
def ofDicts (tags : Dict) (dicts : List (Option Dict)) : Grid :=
  (GridDraft.empty.run (.setTags tags ::
    GridDraft.fill (columnNames dicts) (dicts.map (dictCells (columnNames dicts))))).buildOrEmpty

/-! ## Error grids

A server reports a failure as a grid that is marked with the tag `err` and tells the
text and the trace of the error.
-/

def markName : TagName := ⟨"err", by decide⟩

def messageName : TagName := ⟨"dis", by decide⟩

def traceName : TagName := ⟨"errTrace", by decide⟩

/-- The calls that tell the text and the trace of an error. -/
def reportCalls (message trace : String) : List GridDraft.Call :=
  [.tags (.addMarker markName.text), .tags (.add messageName.text (.str message)),
    .tags (.add traceName.text (.str trace))]

/-- The grid that reports a failure, in its own tags and once more in its only row. Calls
that are refused and a draft that cannot be finished are passed over. -/
def report (message trace : String) : Grid :=
  (GridDraft.empty.run (reportCalls message trace ++
    GridDraft.fill [markName, messageName, traceName]
      [[some .marker, some (.str message), some (.str trace)]])).buildOrEmpty

/-- The grid that reports an error, in whose trace some characters are hidden. -/
def ofError (hidden : Char → Bool) (e : Error) : Grid := report e.message (e.trace hidden)

def isError (g : Grid) : Bool := g.tags.has markName.text

/-- The grid, or the error that it reports. -/
def toResult (g : Grid) : Except Error Grid :=
  if g.isError then
    .error (.call (((g.tags.get? messageName.text).bind Value.str?).getD "server side error")
      ((g.tags.get? traceName.text).bind Value.str?))
  else .ok g

end Grid

end TagGrid
