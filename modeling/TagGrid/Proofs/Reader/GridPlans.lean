import TagGrid.Proofs.Reader.ValuePlans

/-! # How grids are read

Columns ask for tags, rows for the values in their cells, and a stream of grids for one grid
after another. The cells of a row are counted and so no loop of their own.
-/

namespace TagGrid

open Zinc Zinc.Outcome

namespace Plan

variable {cs : List Char}

/-! ## Columns -/

def column (setting : Setting) (draft : GridDraft) (cs : List Char) : Plan GridDraft :=
  let start := skipSpaces cs
  (done (readName start)).bind fun name rest =>
    (done (check start rest (draft.addColumn? name))).bind fun draft rest =>
      (of (.loop (.tags setting) .empty) rest).map fun tags => draft.setColumnTags name tags

theorem brings_column (setting : Setting) (draft : GridDraft) (cs : List Char) :
    Brings cs 0 (column setting draft cs) (readColumn setting draft cs) := by
  refine (Brings.done _).bind fun name rest hname => ?_
  refine (Brings.done _).bind fun draft' rest' hcheck => ?_
  obtain rfl := eq_of_check hcheck
  have hlength := ((advances_readName _).mono (skipSpaces_suffix cs)) name _ hname
  exact Brings.map (.of (Task.size_lt (.loop (.tags setting) .empty) hlength 0)) _

/-- Goes on behind a column. -/
def behindColumn (draft : GridDraft) (cs : List Char) : Plan (Turn GridDraft) :=
  match skipSpaces cs with
  | [] => leave draft []
  | c :: rest => if c = ',' then again draft rest else leave draft (c :: rest)

def columnsTurn (setting : Setting) (draft : GridDraft) (cs : List Char) : Plan (Turn GridDraft) :=
  (column setting draft cs).bind behindColumn

theorem turns_columns (setting : Setting) (draft : GridDraft) (cs : List Char) :
    Turns (Loop.columns setting).read cs (columnsTurn setting draft cs)
      (readColumns setting draft cs) := by
  rw [readColumns_eq]
  have hcolumn := (brings_column setting draft cs).mono (Nat.le_refl _) (Nat.zero_le 1)
  have hwithin := within_readColumn setting draft cs
  refine .bind hcolumn hwithin.rest_suffix fun draft' rest hread hrest => ?_
  have hlength := advances_readColumn setting draft cs draft' rest hread
  unfold behindColumn readBehindColumn
  cases hskip : skipSpaces rest with
  | nil => exact .leave List.nil_suffix
  | cons c rest' =>
    have hstart := suffix_of_skipSpaces hskip
    simp only
    split
    · have hless : rest'.length < rest.length := hstart.length_le
      have hrest' := (List.suffix_cons c rest').trans (hstart.trans hrest)
      exact .again hrest' (Nat.lt_trans hless hlength)
    · exact .leave (hstart.trans hrest)

/-! ## Rows -/

def cell (setting : Setting) (cs : List Char) : Plan (Option Value) :=
  let cell := match skipSpaces cs with
    | [] => done (ok none [])
    | c :: rest =>
      if c = ',' ∨ c = '\n' ∨ c = '\r' then done (ok none (c :: rest))
      else of (.value setting) (c :: rest)
  cell.bind fun value rest => done (ok value (skipSpaces rest))

theorem brings_cell (setting : Setting) (cs : List Char) :
    Brings cs 1 (cell setting cs) (readCell setting cs) := by
  have hlength := length_skipSpaces_le cs
  refine Brings.bind ?_ fun _ _ _ => .done _
  cases hskip : skipSpaces cs with
  | nil => exact .done _
  | cons c rest =>
    rw [hskip] at hlength
    simp only
    split
    · exact .done _
    · exact .of (Task.size_lt_of_le hlength Nat.zero_lt_one)

def cells (setting : Setting) (columns : Nat) : Nat → List Char → Plan (List (Option Value))
  | 0, cs => (cell setting cs).map ([·])
  | missing + 1, cs =>
    (cell setting cs).bind fun cell rest =>
      match rest with
      | ',' :: rest => (cells setting columns missing rest).map (cell :: ·)
      | rest => done (failHere (.rowTooShort (columns - (missing + 1)) columns) rest)

theorem brings_cells (setting : Setting) (columns missing : Nat) (cs : List Char) :
    Brings cs 1 (cells setting columns missing cs) (readCells setting columns missing cs) := by
  induction missing generalizing cs with
  | zero => exact (brings_cell setting cs).map _
  | succ missing ih =>
    refine (brings_cell setting cs).bind fun cell rest hread => ?_
    have hrest := (within_readCell setting cs).suffix_of_ok hread
    by_cases hcomma : ∃ rest', rest = ',' :: rest'
    · obtain ⟨rest', rfl⟩ := hcomma
      have hrest' := (List.suffix_cons ',' rest').trans hrest
      exact ((ih rest').mono hrest'.length_le (Nat.le_refl 1)).map _
    · have hnot := not_exists.1 hcomma
      simp only
      exact .done _

def row (setting : Setting) (draft : GridDraft) (cs : List Char) : Plan GridDraft :=
  let columns := draft.columns.length
  let cells := if columns = 0 then done (ok [] cs) else cells setting columns (columns - 1) cs
  cells.bind fun cells rest =>
    if rest.head? = some ',' then done (failHere (.rowTooLong columns) rest)
    else (done (readLineEnd rest)).bind fun _ rest => done (pass rest (draft.addRow? cells))

theorem brings_row (setting : Setting) (draft : GridDraft) (cs : List Char) :
    Brings cs 1 (row setting draft cs) (readRow setting draft cs) := by
  refine Brings.bind ?_ fun cells rest _ => ?_
  · split
    · exact .done _
    · exact brings_cells setting _ _ cs
  · split
    · exact .done _
    · exact (Brings.done _).bind fun _ _ _ => .done _

def rowsTurn (setting : Setting) (draft : GridDraft) (cs : List Char) : Plan (Turn GridDraft) :=
  match cs with
  | [] => leave draft []
  | c :: line =>
    if c = '\n' ∨ c = '\r' then
      (done (readLineEnd (c :: line))).bind fun _ rest => leave draft rest
    else (row setting draft (c :: line)).bind again

theorem turns_rows (setting : Setting) (draft : GridDraft) (cs : List Char) :
    Turns (Loop.rows setting).read cs (rowsTurn setting draft cs) (readRows setting draft cs) := by
  cases cs with
  | nil =>
    rw [readRows]
    exact .leave List.nil_suffix
  | cons c line =>
    simp only [rowsTurn]
    split
    · rename_i hend
      rw [readRows, if_pos hend]
      exact .bind (.done _) (within_readLineEnd _).rest_suffix fun _ _ _ => .leave
    · rename_i hline
      rw [readRows_line hline]
      have hwithin := within_readRow setting draft (c :: line)
      have hadvances := advances_readRow setting draft (List.cons_ne_nil c line)
      exact .bind (brings_row setting draft (c :: line)) hwithin.rest_suffix
        fun draft' rest hread hrest => .again hrest (hadvances draft' rest hread)

/-! ## Grids -/

def grid (setting : Setting) (cs : List Char) : Plan Grid :=
  (done (readHeader cs)).bind fun _ rest =>
    (of (.loop (.tags setting) .empty) rest).bind fun tags rest =>
      (done (readLineEnd rest)).bind fun _ rest =>
        (of (.loop (.columns setting) (GridDraft.empty.setTags tags)) rest).bind fun draft rest =>
          (done (readLineEnd rest)).bind fun _ rest =>
            (of (.loop (.rows setting) draft) rest).bind fun draft rest =>
              done (pass rest draft.build?)

theorem brings_grid (setting : Setting) (cs : List Char) :
    Brings cs 0 (grid setting cs) (readGrid setting cs) := by
  refine (Brings.done _).bind fun _ rest₁ hheader => ?_
  have hrest₁ := advances_readHeader cs _ _ hheader
  refine (Brings.of (Task.size_lt _ hrest₁ 0)).bind fun tags rest₂ htags => ?_
  have hrest₂ := ((within_readTags setting .empty rest₁).suffix_of_ok htags).length_le
  refine (Brings.done _).bind fun _ rest₃ hend => ?_
  have hrest₃ := ((within_readLineEnd rest₂).suffix_of_ok hend).length_le
  refine (Brings.of (Task.size_lt _ (by omega) 0)).bind fun draft rest₄ hcolumns => ?_
  have hrest₄ := ((within_readColumns setting _ rest₃).suffix_of_ok hcolumns).length_le
  refine (Brings.done _).bind fun _ rest₅ hend => ?_
  have hrest₅ := ((within_readLineEnd rest₄).suffix_of_ok hend).length_le
  exact (Brings.of (Task.size_lt _ (by omega) 0)).bind fun _ _ _ => .done _

def gridsTurn (setting : Setting) (grids : List Grid) (cs : List Char) : Plan (Turn (List Grid)) :=
  match skipBlanks cs with
  | [] => leave grids []
  | c :: start =>
    (of (.request .grid setting) (c :: start)).bind fun (grid : Grid) rest =>
      again (grids ++ [grid]) rest

theorem turns_grids (setting : Setting) (grids : List Grid) (cs : List Char) :
    Turns (Loop.grids setting).read cs (gridsTurn setting grids cs)
      ((readGrids setting cs).map (grids ++ ·)) := by
  rw [readGrids_eq]
  unfold gridsTurn
  cases hskip : skipBlanks cs with
  | nil =>
    simp only [map_ok, List.append_nil]
    exact .leave List.nil_suffix
  | cons c start =>
    have hstart := suffix_of_skipBlanks hskip
    have hwithin := (within_readGrid setting (c :: start)).mono hstart
    simp only
    rw [map_bind]
    refine .bind (.of ?_) hwithin.rest_suffix fun (grid : Grid) rest hread hrest => ?_
    · exact Task.size_lt_of_le hstart.length_le Nat.zero_lt_one
    · rw [map_append_cons]
      exact .again hrest ((advances_readGrid setting (c :: start)).mono hstart grid rest hread)

end Plan

end TagGrid
