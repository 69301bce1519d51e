import TagGrid.Proofs.Zinc.Lines
import TagGrid.Proofs.Zinc.Streams

/-! # Rows with a wrong number of cells

A row that ends before its last cell is a fault behind the cells that it has, and a row that
goes on after its last cell is one at the comma that follows. Both places are on the line of the
row, and the line feeds before it are the ends of the lines above.
-/

namespace TagGrid

namespace Zinc

open Text Outcome Written

variable {version : Version} {draft : GridDraft} {cs line tail rest text : List Char}
  {pieces lines : List (List Char)} {cells : List (Option Value)} {place columns missing : Nat}

/-! ## Lines put into a text -/

/-- A text with one more line, which is put in front of the line at a place counted from 0. -/
def insertLine (place : Nat) (line text : List Char) : List Char :=
  ['\n'].intercalate ((text.splitOn '\n').insertIdx place line)

theorem intercalate_lines (lines : List (List Char)) :
    ['\n'].intercalate (lines ++ [[]]) = lines.flatMap (· ++ ['\n']) := by
  induction lines with
  | nil => rfl
  | cons line lines ih =>
    rw [List.cons_append, List.intercalate_cons_of_ne_nil (by simp), ih, List.flatMap_cons]

theorem insertIdx_lines (line : List Char) (h : place ≤ lines.length) :
    (lines ++ [[]]).insertIdx place line =
      lines.take place ++ line :: lines.drop place ++ [[]] := by
  induction lines generalizing place with
  | nil =>
    obtain rfl : place = 0 := Nat.le_zero.1 h
    rfl
  | cons first lines ih =>
    cases place with
    | zero => rfl
    | succ place =>
      have hplace : place ≤ lines.length := Nat.le_of_succ_le_succ h
      simpa using ih hplace

theorem insertLine_lines (hlines : ∀ l ∈ lines, OnOneLine l) (hplace : place ≤ lines.length)
    (line : List Char) :
    insertLine place line (lines.flatMap (· ++ ['\n'])) =
      (lines.take place).flatMap (· ++ ['\n']) ++
        (line ++ '\n' :: (lines.drop place).flatMap (· ++ ['\n'])) := by
  unfold insertLine
  rw [splitOn_lines hlines, insertIdx_lines line hplace, intercalate_lines]
  simp

/-- The line of some cells: the texts of their values, with commas between them. -/
def cellLine (cells : List (Option Value)) : List Char :=
  (separated ',' (cells.map (writeCell .v3))).text

theorem cellLine_eq (cells : List (Option Value)) :
    cellLine cells = joined ',' (cells.map (cellText .v3)) := by
  have hwritten : separated ',' (cells.map (writeCell .v3)) =
      ofText (joined ',' (cells.map (cellText .v3))) :=
    separated_ofText fun cell _ => writeCell_eq fun v _ => hasText_v3 v
  unfold cellLine
  rw [hwritten]
  rfl

/-! ## Rows -/

/-- What is wrong with a row of so many cells in a grid of so many columns. -/
def wrongCount (cells columns : Nat) : Fault :=
  if cells < columns then .rowTooShort cells columns else .rowTooLong columns

/-- A line of too few cells is read to its end. -/
theorem readCells_short (hcells : List.Forall₂ ReadsAsCell pieces cells)
    (hline : LineOf pieces line) (htail : EndsLine tail rest) (hshort : cells.length ≤ missing)
    (hmissing : missing ≤ columns) :
    readCells .data columns missing (line ++ tail) =
      failHere (.rowTooShort (columns - missing + (cells.length - 1)) columns) tail := by
  induction hcells generalizing line missing with
  | nil => exact absurd rfl hline.ne_nil
  | @cons piece cell pieces cells hcell hcells ih =>
    obtain ⟨before, after, more, hbefore, hafter, rfl, hmore⟩ := hline.uncons
    cases missing with
    | zero => exact absurd hshort (Nat.not_succ_le_zero _)
    | succ missing =>
      rcases hmore with ⟨rfl, rfl⟩ | ⟨line', rfl, hline'⟩
      · cases hcells
        -- Behind the last cell the line ends, where a comma would have to be.
        have hlast := hcell before after tail hbefore hafter htail.endsPiece
        simp only [readCells, List.append_assoc, List.nil_append, hlast, bind_ok]
        cases htail <;> rfl
      · have hothers := ih hline' (Nat.le_of_succ_le_succ hshort) (Nat.le_of_succ_le hmissing)
        have hpos := length_cells_pos hcells hline'
        have hread : columns - missing + (cells.length - 1) =
            columns - (missing + 1) + cells.length := by omega
        simp only [List.append_assoc, List.cons_append, readCells_comma hcell hbefore hafter,
          hothers, hread]
        rfl

/-- A line of too many cells is read up to the comma behind the last cell that there is a column
for. -/
theorem readCells_long (hcells : List.Forall₂ ReadsAsCell pieces cells)
    (hline : LineOf pieces line) (hlong : missing + 1 < cells.length) (columns : Nat)
    (tail : List Char) :
    ∃ front behind, line = front ++ ',' :: behind ∧
      readCells .data columns missing (line ++ tail) =
        ok (cells.take (missing + 1)) (',' :: (behind ++ tail)) := by
  induction hcells generalizing line missing with
  | nil => exact absurd rfl hline.ne_nil
  | @cons piece cell pieces cells hcell hcells ih =>
    obtain ⟨before, after, more, hbefore, hafter, rfl, hmore⟩ := hline.uncons
    rcases hmore with ⟨rfl, rfl⟩ | ⟨line', rfl, hline'⟩
    · cases hcells
      simp at hlong
    · cases missing with
      | zero =>
        have hfirst := hcell before after (',' :: (line' ++ tail)) hbefore hafter
          (EndsPiece.comma _)
        refine ⟨before ++ (piece ++ after), line', by simp, ?_⟩
        simp only [readCells, List.append_assoc, List.cons_append, hfirst]
        rfl
      | succ missing =>
        obtain ⟨front, behind, hsplit, hothers⟩ := ih hline' (by simpa using hlong)
        refine ⟨before ++ (piece ++ (after ++ ',' :: front)), behind, by simp [hsplit], ?_⟩
        simp only [List.append_assoc, List.cons_append, readCells_comma hcell hbefore hafter,
          hothers]
        rfl

/-- A row with a wrong number of cells is a fault at a place on its line. -/
theorem readRow_wrongCount (hcells : List.Forall₂ ReadsAsCell pieces cells)
    (hline : LineOf pieces line) (htail : EndsLine tail rest) (hcolumns : draft.columns ≠ [])
    (hcount : cells.length ≠ draft.columns.length) :
    ∃ front behind, line = front ++ behind ∧
      readRow .data draft (line ++ tail) =
        failHere (wrongCount cells.length draft.columns.length) (behind ++ tail) := by
  have hpos : draft.columns.length ≠ 0 := fun hzero => hcolumns (List.length_eq_zero_iff.1 hzero)
  rcases Nat.lt_or_gt_of_ne hcount with hshort | hlong
  · have hfirst := length_cells_pos hcells hline
    have hread := readCells_short hcells hline htail (Nat.le_sub_one_of_lt hshort)
      (Nat.sub_le draft.columns.length 1)
    have hnumber : draft.columns.length - (draft.columns.length - 1) + (cells.length - 1) =
        cells.length := by omega
    refine ⟨line, [], by simp, ?_⟩
    simp only [readRow, hpos, if_false, hread, hnumber, wrongCount, hshort, if_true]
    rfl
  · have hmore : draft.columns.length - 1 + 1 < cells.length := by omega
    obtain ⟨front, behind, hsplit, hread⟩ :=
      readCells_long hcells hline hmore draft.columns.length tail
    refine ⟨front, ',' :: behind, hsplit, ?_⟩
    simp only [readRow, hpos, if_false, hread, bind_ok, wrongCount, Nat.lt_asymm hlong]
    rfl

theorem OnOneLine.startsLine (h : OnOneLine cs) (hne : cs ≠ []) : StartsLine cs := by
  obtain ⟨c, more, rfl⟩ := List.exists_cons_of_ne_nil hne
  have hc := h c List.mem_cons_self
  refine ⟨c, more, rfl, ?_, ?_⟩
  · rintro rfl
    exact absurd hc (by decide)
  · rintro rfl
    exact absurd hc (by decide)

theorem onOneLine_cellLine (cells : List (Option Value)) : OnOneLine (cellLine cells) := by
  rw [cellLine_eq]
  apply OnOneLine.joined (by decide)
  simp [onOneLine_cellText]

theorem forall₂_readsAsCell (hsafe : ∀ v, some v ∈ cells → v.zincSafe = true) :
    List.Forall₂ ReadsAsCell (cells.map (cellText .v3)) cells := by
  rw [List.forall₂_map_left_iff, List.forall₂_same]
  intro cell hcell
  apply readsAsCell_cellText
  rintro v rfl
  exact readsBack_zinc v (hsafe v hcell)

theorem lineOf_cellLine (hne : cellLine cells ≠ []) :
    LineOf (cells.map (cellText .v3)) (cellLine cells) := by
  rw [cellLine_eq] at hne ⊢
  apply lineOf_joined
  rintro hnil
  exact hne (by rw [hnil, joined])

/-! ## Grids with a row too many -/

/-- Behind the rows of a grid, a line with a wrong number of cells is a fault at a place on that
line. -/
theorem readGrid_wrongCount {g : Grid} (hsafe : g.everyValue Value.zincSafe = true)
    (hcells : ∀ v, some v ∈ cells → v.zincSafe = true) (hcount : cells.length ≠ g.columns.length)
    (hne : cellLine cells ≠ []) (others : List Char) :
    ∃ front behind, cellLine cells = front ++ behind ∧
      readGrid .data (gridText .v3 g ++ (cellLine cells ++ '\n' :: others)) =
        failHere (wrongCount cells.length g.columns.length) (behind ++ '\n' :: others) := by
  obtain ⟨draft, hcolumns, -, hgrid⟩ := readGrid_through_safe hsafe
    (laidOut_gridText .v3 g (cellLine cells ++ '\n' :: others))
  obtain ⟨front, behind, hsplit, hrow⟩ :=
    readRow_wrongCount (forall₂_readsAsCell hcells) (lineOf_cellLine hne) (.newline others)
      (hcolumns ▸ g.nonempty) (hcolumns ▸ hcount)
  have hstart := ((onOneLine_cellLine cells).startsLine hne).append ('\n' :: others)
  refine ⟨front, behind, hsplit, ?_⟩
  rw [hgrid, readRows_row hstart, hrow, hcolumns]
  rfl

end Zinc

/-- A grid without its rows from a place on. -/
def Grid.upTo (g : Grid) (place : Nat) : Grid where
  tags := g.tags
  columns := g.columns
  rows := g.rows.take place
  nonempty := g.nonempty
  distinct := g.distinct
  rectangular := fun cells hcells => g.rectangular cells (List.mem_of_mem_take hcells)

theorem Grid.everyValue_upTo {g : Grid} {p : Value → Bool} (h : g.everyValue p = true)
    (place : Nat) : (g.upTo place).everyValue p = true := by
  obtain ⟨htags, hcolumns, hcells⟩ := everyValue_iff.1 h
  refine everyValue_iff.2 ⟨htags, hcolumns, ?_⟩
  exact fun cells hmem => hcells cells (List.mem_of_mem_take hmem)

namespace Zinc

open Text Outcome Written

variable {version : Version} {g : Grid} {place : Nat} {cells : List (Option Value)}

theorem gridLines_upTo (version : Version) (g : Grid) (place : Nat) :
    gridLines version (g.upTo place) = (gridLines version g).take (place + 2) := by
  simp [gridLines, Grid.upTo, headerText]

/-- A line that is put in front of a row stands behind the text of the grid up to that row. -/
theorem exists_insertLine_gridText (version : Version) (hplace : place ≤ g.rows.length)
    (line : List Char) :
    ∃ others, insertLine (place + 2) line (gridText version g) =
      gridText version (g.upTo place) ++ (line ++ '\n' :: others) := by
  have hlines : ∀ l ∈ (gridLines version g).map (joined ','), OnOneLine l :=
    fun l hl => (gridLines_spec version g l hl).2
  have hlength : place + 2 ≤ ((gridLines version g).map (joined ',')).length := by
    simpa [gridLines] using hplace
  refine ⟨(((gridLines version g).map (joined ',')).drop (place + 2)).flatMap (· ++ ['\n']), ?_⟩
  rw [gridText_eq, gridText_eq, gridLines_upTo, List.map_take]
  exact insertLine_lines hlines hlength line

theorem count_newline_upTo (version : Version) (hplace : place ≤ g.rows.length) :
    (gridText version (g.upTo place)).count '\n' = place + 2 := by
  rw [(lineText_gridText version (g.upTo place)).newlines]
  simp [Grid.upTo, hplace]

theorem toError_wrongCount (cells columns line : Nat) :
    (wrongCount cells columns).toError line = .parse line (wrongCount cells columns).message := by
  unfold wrongCount
  split <;> rfl

/-- A line of safe values that are more or fewer than the columns of a grid, put in front of a
row or behind the last one, is reported as a row with a wrong number of cells, on its own line. -/
theorem wrong_cell_count_is_located (g : Grid) (hsafe : g.everyValue Value.zincSafe = true)
    (place : Nat) (hplace : place ≤ g.rows.length) (cells : List (Option Value))
    (hcells : ∀ v, some v ∈ cells → v.zincSafe = true) (hcount : cells.length ≠ g.columns.length)
    (hline : cellLine cells ≠ []) :
    ∃ text, ofGrid? .v3 g = .ok text ∧
      toGrid? (String.ofList (insertLine (place + 2) (cellLine cells) text.toList)) =
        .error (.parse (place + 3) (wrongCount cells.length g.columns.length).message) := by
  refine ⟨_, ofGrid?_v3 g, ?_⟩
  obtain ⟨others, htext⟩ := exists_insertLine_gridText .v3 hplace (cellLine cells)
  obtain ⟨front, behind, hsplit, hread⟩ :=
    readGrid_wrongCount (Grid.everyValue_upTo hsafe place) hcells hcount hline others
  have hfront : OnOneLine front :=
    (OnOneLine.append_iff.1 (hsplit ▸ onOneLine_cellLine cells)).1
  have hlines : (gridText .v3 (g.upTo place) ++ front).count '\n' = place + 2 := by
    rw [List.count_append, count_newline_upTo .v3 hplace,
      List.count_eq_zero.2 hfront.newline_not_mem, Nat.add_zero]
  have hplaced : gridText .v3 (g.upTo place) ++ (cellLine cells ++ '\n' :: others) =
      gridText .v3 (g.upTo place) ++ front ++ (behind ++ '\n' :: others) := by
    simp only [hsplit, List.append_assoc]
  rw [hplaced] at hread
  rw [String.toList_ofList, htext, hplaced]
  calc
    ((Reader.ofText (String.ofList _)).run readGrid).1
    _ = .error ((wrongCount cells.length g.columns.length).toError (1 + (place + 2))) := by
      rw [Reader.run_eq_error hread, hlines]
      rfl
    _ = .error (.parse (place + 3) (wrongCount cells.length g.columns.length).message) := by
      rw [toError_wrongCount, Nat.add_comm 1]

/-- In front of its second row the sample gets a cell whose text has commas and line ends in
quotes, and behind its last row three blank cells. -/
theorem sample_with_wrong_cell_counts :
    Grid.sample.everyValue Value.zincSafe = true ∧
      ∃ text, ofGrid? .v3 .sample = .ok text ∧
        toGrid? (String.ofList (insertLine 3 (cellLine [some .sample]) text.toList)) =
          .error (.parse 4 "Row has 1 cells, expected 2") ∧
        toGrid? (String.ofList (insertLine 5 (cellLine [none, none, none]) text.toList)) =
          .error (.parse 6 "Row has more than 2 cells") := by
  have hsafe : Grid.sample.everyValue Value.zincSafe = true := by decide
  have hvalue : ∀ v, some v ∈ [some Value.sample] → v.zincSafe = true := by
    intro v hv
    obtain rfl : v = .sample := by simpa using hv
    decide
  obtain ⟨text, htext, hshort⟩ :=
    wrong_cell_count_is_located .sample hsafe 1 (by decide) [some .sample] hvalue (by decide)
      (by decide)
  obtain ⟨text', htext', hlong⟩ :=
    wrong_cell_count_is_located .sample hsafe 3 (by decide) [none, none, none] (by simp)
      (by decide) (by decide)
  obtain rfl : text' = text := Except.ok.inj (htext'.symm.trans htext)
  exact ⟨hsafe, text', htext, hshort, hlong⟩

end Zinc

end TagGrid
