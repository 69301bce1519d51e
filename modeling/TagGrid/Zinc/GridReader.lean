import TagGrid.Grid.Draft
import TagGrid.Zinc.ValueReader
import TagGrid.Zinc.ValueText

/-! # Reading grids

A grid starts with `ver` and a version. Its tags stand on the first line, its columns on
the second, and every line after that is a row, up to an empty line or the end of the
text.
-/

namespace TagGrid.Zinc

open Outcome

/-- Reads the word, the colon and the version that every grid starts with. -/
def readHeader (cs : List Char) : Outcome Unit :=
  (readName (skipBlanks cs)).bind fun word rest =>
    if word = "ver" then
      (readChar ':' rest).bind fun _ rest =>
        (readStr rest).bind fun version rest =>
          if version = Version.v3.name ∨ version = Version.v2.name then ok () rest
          else failHere (.version version) rest
    else failHere (.gridStart word) rest

/-- Reads a column with its tags. A name that is refused is a fault at the place of the
name. -/
def readColumn (setting : Setting) (draft : GridDraft) (cs : List Char) : Outcome GridDraft :=
  let start := skipSpaces cs
  (readName start).bind fun name rest =>
    (check start rest (draft.addColumn? name)).bind fun draft rest =>
      (readTags setting .empty rest).map fun tags => draft.setColumnTags name tags

def readColumns (setting : Setting) (draft : GridDraft) (cs : List Char) :
    Outcome GridDraft :=
  match readColumn setting draft cs with
  | fail fault place rest => fail fault place rest
  | ok draft rest =>
    match skipSpaces rest with
    | ',' :: rest =>
      if rest.length < cs.length then readColumns setting draft rest else ok draft (',' :: rest)
    | rest => ok draft rest
termination_by cs.length

/-- Reads a cell, spaces around it included; it is blank if a comma or the line end
follows. -/
def readCell (setting : Setting) (cs : List Char) : Outcome (Option Value) :=
  let cell := match skipSpaces cs with
    | [] => ok none []
    | c :: rest =>
      if c = ',' ∨ c = '\n' ∨ c = '\r' then ok none (c :: rest)
      else readValue setting (c :: rest)
  cell.bind fun value rest => ok value (skipSpaces rest)

/-- Reads the cells of a row of `columns` columns, of which `missing + 1` are still to be
read. -/
def readCells (setting : Setting) (columns : Nat) :
    Nat → List Char → Outcome (List (Option Value))
  | 0, cs => (readCell setting cs).map ([·])
  | missing + 1, cs =>
    (readCell setting cs).bind fun cell rest =>
      match rest with
      | ',' :: rest => (readCells setting columns missing rest).map (cell :: ·)
      | rest => failHere (.rowTooShort (columns - (missing + 1)) columns) rest

def readRow (setting : Setting) (draft : GridDraft) (cs : List Char) : Outcome GridDraft :=
  let columns := draft.columns.length
  let cells := if columns = 0 then ok [] cs else readCells setting columns (columns - 1) cs
  cells.bind fun cells rest =>
    if rest.head? = some ',' then failHere (.rowTooLong columns) rest
    else (readLineEnd rest).bind fun _ rest => pass rest (draft.addRow? cells)

/-- Reads rows up to an empty line or the end of the text. A row that takes nothing from
the text is the last one. -/
def readRows (setting : Setting) (draft : GridDraft) (cs : List Char) : Outcome GridDraft :=
  match cs with
  | [] => ok draft []
  | c :: line =>
    if c = '\n' ∨ c = '\r' then (readLineEnd (c :: line)).map fun _ => draft
    else
      match readRow setting draft (c :: line) with
      | fail fault place rest => fail fault place rest
      | ok draft rest =>
        if rest.length < (c :: line).length then readRows setting draft rest else ok draft rest
termination_by cs.length
decreasing_by assumption

def readGrid (setting : Setting) (cs : List Char) : Outcome Grid :=
  (readHeader cs).bind fun _ rest =>
    (readTags setting .empty rest).bind fun tags rest =>
      (readLineEnd rest).bind fun _ rest =>
        (readColumns setting (GridDraft.empty.setTags tags) rest).bind fun draft rest =>
          (readLineEnd rest).bind fun _ rest =>
            (readRows setting draft rest).bind fun draft rest => pass rest draft.build?

def readGrids (setting : Setting) (cs : List Char) : Outcome (List Grid) :=
  match skipBlanks cs with
  | [] => ok [] []
  | start =>
    match readGrid setting start with
    | fail fault place rest => fail fault place rest
    | ok grid rest =>
      if rest.length < cs.length then (readGrids setting rest).map (grid :: ·) else ok [grid] rest
termination_by cs.length

end TagGrid.Zinc
