import TagGrid.Proofs.Grid.Draft
import TagGrid.Proofs.Zinc.Layouts

/-! # Reading grids back

A draft takes the columns and then the rows of a written grid one by one, each of them
exactly, and is built into the same grid, whatever the layout is. What is read after the
last row is left open: the end of the text, or the empty line before another grid.
-/

namespace TagGrid

namespace Zinc

open Text Outcome Written

variable {version : Version} {line tail rest rest' text : List Char}
  {pieces lines : List (List Char)} {draft : GridDraft}

theorem readHeader_text (version : Version) (rest : List Char) :
    readHeader ("ver:".toList ++ (strLiteral version.name ++ rest)) = ok () rest := by
  have hskip : skipBlanks ("ver:".toList ++ (strLiteral version.name ++ rest)) =
      ['v', 'e', 'r'] ++ ':' :: (strLiteral version.name ++ rest) := skipBlanks_cons _ (by decide)
  have hchars : ∀ c ∈ ['v', 'e', 'r'], isNameChar c = true := List.all_eq_true.1 (by decide)
  have hstops : Stops isNameChar (':' :: (strLiteral version.name ++ rest)) := Stops.cons rfl
  have hname : readName (['v', 'e', 'r'] ++ ':' :: (strLiteral version.name ++ rest)) =
      ok "ver" (':' :: (strLiteral version.name ++ rest)) := readNameOr_append rfl hchars hstops
  have hversion : version.name = Version.v3.name ∨ version.name = Version.v2.name := by
    cases version with
    | v2 => exact .inr rfl
    | v3 => exact .inl rfl
  unfold readHeader
  rw [hskip, hname]
  simp only [bind_ok, if_true, readChar_cons, readStr_strLiteral, hversion]

/-- Spaces in front of a header are skipped. -/
theorem readHeader_gap {gap : List Char} (hgap : IsGap gap) (cs : List Char) :
    readHeader (gap ++ cs) = readHeader cs := by
  unfold readHeader
  rw [skipBlanks_gap hgap]

theorem readLineEnd_endsLine (h : EndsLine tail rest) : readLineEnd tail = ok () rest := by
  unfold readLineEnd
  rw [h.endsPiece.skipSpaces_eq]
  cases h <;> rfl

/-! ## Columns -/

theorem readName_name (n : TagName) (hstops : Stops isNameChar rest) :
    readName (n.text.toList ++ rest) = ok n.text rest := by
  obtain ⟨c, cs, hname, hlower, hchars⟩ := n.exists_cons
  have halpha := isAlpha_of_isLower hlower
  unfold readName
  rw [hname, readNameOr_append halpha hchars hstops, ← hname, String.ofList_toList]

/-- A column is read as the next one of the draft. -/
theorem readColumn_columnText {c : Column}
    (hread : ∀ e ∈ c.tags.entries, ReadsBack (textIn version e.2) e.2) (hrest : EndsTags rest)
    (hrows : draft.rows = []) (hnew : c.name ∉ draft.columns.map Column.name) :
    ∃ draft', readColumn .data draft (columnText version c ++ rest) = ok draft' (skipSpaces rest) ∧
      draft'.tags = draft.tags ∧ draft'.columns = draft.columns ++ [c] ∧ draft'.rows = [] := by
  obtain ⟨b, hadd, htags, hcolumns, hrows'⟩ := GridDraft.exists_addColumn? hrows hnew
  refine ⟨b.setColumnTags c.name.text c.tags, ?_, htags, hcolumns, hrows'⟩
  have hstops : Stops isNameChar (tagsText version c.tags.entries ++ rest) :=
    (endsTag version c.tags.entries hrest).1.stops (by decide)
  simp only [readColumn, columnText, List.append_assoc, skipSpaces_name,
    readName_name c.name hstops, bind_ok, hadd, check_ok, readTags_dict hread hrest rfl, map_ok]

/-- Spaces in front of a column are skipped. -/
theorem readColumn_gap {gap : List Char} (hgap : IsGap gap) (cs : List Char) :
    readColumn .data draft (gap ++ cs) = readColumn .data draft cs := by
  unfold readColumn
  rw [skipSpaces_gap hgap]

theorem readBehindColumn_end (htail : EndsLine tail rest) (draft : GridDraft) :
    readBehindColumn .data draft tail = ok draft tail := by
  unfold readBehindColumn
  rw [htail.endsPiece.skipSpaces_eq]
  cases htail <;> rfl

theorem readBehindColumn_comma (draft : GridDraft) (rest : List Char) :
    readBehindColumn .data draft (',' :: rest) = readColumns .data draft rest := by
  unfold readBehindColumn
  rw [skipSpaces_cons rest (by decide : isSpace ',' = false)]
  exact if_pos rfl

theorem name_notMem_of_distinct {before columns : List Column} {c : Column}
    (hdistinct : ((before ++ c :: columns).map Column.name).Nodup) :
    c.name ∉ before.map Column.name := by
  rw [List.map_append, List.nodup_append] at hdistinct
  intro hmem
  exact hdistinct.2.2 c.name hmem c.name (by simp) rfl

/-- The columns of a grid are read from a line of them, up to the end of the line. -/
theorem readColumns_line {columns : List Column}
    (hread : ∀ c ∈ columns, ∀ e ∈ c.tags.entries, ReadsBack (textIn version e.2) e.2)
    (hrows : draft.rows = [])
    (hdistinct : ((draft.columns ++ columns).map Column.name).Nodup)
    (hline : LineOf (columns.map (columnText version)) line) (htail : EndsLine tail rest) :
    ∃ draft', readColumns .data draft (line ++ tail) = ok draft' tail ∧
      draft'.tags = draft.tags ∧ draft'.columns = draft.columns ++ columns ∧ draft'.rows = [] := by
  induction columns generalizing draft line with
  | nil => exact absurd rfl hline.ne_nil
  | cons c columns ih =>
    have hnew := name_notMem_of_distinct hdistinct
    have hreadc := hread c List.mem_cons_self
    obtain ⟨before, after, more, hbefore, hafter, rfl, hmore⟩ := hline.uncons
    rcases hmore with ⟨hnil, rfl⟩ | ⟨line', rfl, hline'⟩
    · obtain rfl : columns = [] := List.map_eq_nil_iff.1 hnil
      obtain ⟨draft', hcolumn, hdraft'⟩ :=
        readColumn_columnText hreadc (htail.endsPiece.endsTags hafter) hrows hnew
      refine ⟨draft', ?_, hdraft'⟩
      simp only [List.append_nil, List.append_assoc]
      rw [readColumns_eq, readColumn_gap hbefore, hcolumn, htail.endsPiece.skipSpaces_gap hafter,
        bind_ok, readBehindColumn_end htail]
    · have hcomma : EndsPiece (',' :: (line' ++ tail)) := EndsPiece.comma _
      obtain ⟨draft₁, hcolumn, htags₁, hcolumns₁, hrows₁⟩ :=
        readColumn_columnText hreadc (hcomma.endsTags hafter) hrows hnew
      have hdistinct₁ : ((draft₁.columns ++ columns).map Column.name).Nodup := by
        rw [hcolumns₁, List.append_assoc]
        exact hdistinct
      obtain ⟨draft', hcolumns', htags', hcolumns, hrows'⟩ :=
        ih (fun e he => hread e (List.mem_cons_of_mem _ he)) hrows₁ hdistinct₁ hline'
      refine ⟨draft', ?_, htags'.trans htags₁, ?_, hrows'⟩
      · simp only [List.append_assoc, List.cons_append]
        rw [readColumns_eq, readColumn_gap hbefore, hcolumn, hcomma.skipSpaces_gap hafter, bind_ok,
          readBehindColumn_comma, hcolumns']
      · rw [hcolumns, hcolumns₁, List.append_assoc]
        rfl

/-! ## Rows -/

/-- A text is read as a cell between gaps, in front of another cell and at the end of a row. -/
def ReadsAsCell (text : List Char) (cell : Option Value) : Prop :=
  ∀ before after rest, IsGap before → IsGap after → EndsPiece rest →
    readCell .data (before ++ (text ++ (after ++ rest))) = ok cell rest

theorem readsAsCell_blank : ReadsAsCell [] none := by
  intro before after rest hbefore hafter hrest
  simp only [readCell, List.nil_append, skipSpaces_gap hbefore, hrest.skipSpaces_gap hafter]
  cases rest with
  | nil => rfl
  | cons c rest =>
    have hblank : c = ',' ∨ c = '\n' ∨ c = '\r' := hrest c rfl
    simp only [hblank, if_true, bind_ok, hrest.skipSpaces_eq]

/-- A cell that starts like a value is a value with gaps around it. -/
theorem readCell_value {c : Char} (hc : startsValue c = true) {before : List Char}
    (hbefore : IsGap before) (cs : List Char) :
    readCell .data (before ++ c :: cs) =
      (readValue .data (c :: cs)).bind fun value rest => ok value (skipSpaces rest) := by
  obtain ⟨hdelimiter, -, hspace⟩ := startsValue_spec hc
  have hnot : ¬ (c = ',' ∨ c = '\n' ∨ c = '\r') := by
    rintro (rfl | rfl | rfl)
    · exact hdelimiter (by decide)
    · exact hdelimiter (by decide)
    · exact hdelimiter (by decide)
  simp only [readCell, skipSpaces_gap hbefore, skipSpaces_cons _ hspace, hnot, if_false]

/-- A text that starts like a value is read as a cell if it is read as a value. -/
theorem readsAsCell_of_readValue {c : Char} {cs : List Char} {cell : Option Value}
    (hc : startsValue c = true)
    (hread : ∀ rest, Follows rest → readValue .data (c :: cs ++ rest) = ok cell rest) :
    ReadsAsCell (c :: cs) cell := by
  intro before after rest hbefore hafter hrest
  have hvalue := hread (after ++ rest) (hrest.follows hafter)
  rw [List.cons_append] at hvalue ⊢
  rw [readCell_value hc hbefore, hvalue, bind_ok, hrest.skipSpaces_gap hafter]

theorem readsAsCell_cellText {cell : Option Value}
    (hread : ∀ v, cell = some v → ReadsBack (textIn version v) v) :
    ReadsAsCell (cellText version cell) cell := by
  cases cell with
  | none => exact readsAsCell_blank
  | some v =>
    obtain ⟨c, cs, hcs, hc⟩ := exists_textIn_cons version v
    have hreadv := hread v rfl .data
    show ReadsAsCell (textIn version v) (some v)
    rw [hcs] at hreadv ⊢
    exact readsAsCell_of_readValue hc hreadv

/-- The word of an absent value, which stands in the first cell of a row without values. -/
theorem readsAsCell_absent : ReadsAsCell ['N'] none := by
  apply readsAsCell_of_readValue rfl
  intro rest hrest
  show readValue .data ('N' :: rest) = ok none rest
  rw [readValue_alpha rfl]
  show readWordValue .data (['N'] ++ rest) = ok none rest
  exact readWordValue_keyword (List.all_eq_true.1 (by decide)) rfl (hrest.stops (by decide))

theorem forall₂_rowPieces {cells : List (Option Value)} (hne : cells ≠ [])
    (hread : ∀ x ∈ cells, ∀ v, x = some v → ReadsBack (textIn version v) v) :
    List.Forall₂ ReadsAsCell (rowPieces version cells) cells := by
  unfold rowPieces
  split
  · rename_i hblank
    have hblank' : ∀ x ∈ cells, x = none := by
      intro x hx
      exact Option.isNone_iff_eq_none.1 (List.all_eq_true.1 hblank x hx)
    cases cells with
    | nil => exact absurd rfl hne
    | cons cell cells =>
      obtain rfl : cell = none := hblank' cell List.mem_cons_self
      refine .cons readsAsCell_absent ?_
      rw [List.tail_cons, List.forall₂_map_left_iff, List.forall₂_same]
      intro x hx
      rw [hblank' x (List.mem_cons_of_mem _ hx)]
      exact readsAsCell_blank
  · rw [List.forall₂_map_left_iff, List.forall₂_same]
    intro x hx
    exact readsAsCell_cellText (hread x hx)

theorem length_cells_pos {cells : List (Option Value)}
    (hcells : List.Forall₂ ReadsAsCell pieces cells) (hline : LineOf pieces line) :
    0 < cells.length := by
  rw [← hcells.length_eq]
  exact List.length_pos_iff.2 hline.ne_nil

/-- A cell with a comma behind it is followed by the others. -/
theorem readCells_comma {piece before after : List Char} {cell : Option Value}
    (hcell : ReadsAsCell piece cell) (hbefore : IsGap before) (hafter : IsGap after)
    (columns missing : Nat) (behind : List Char) :
    readCells .data columns (missing + 1) (before ++ (piece ++ (after ++ ',' :: behind))) =
      (readCells .data columns missing behind).map (cell :: ·) := by
  have hread := hcell before after (',' :: behind) hbefore hafter (EndsPiece.comma behind)
  rw [readCells, hread]
  rfl

/-- The cells of a row are read from a line of them, up to the end of the line. -/
theorem readCells_line {cells : List (Option Value)}
    (hcells : List.Forall₂ ReadsAsCell pieces cells) (hline : LineOf pieces line)
    (htail : EndsLine tail rest) (columns : Nat) :
    readCells .data columns (cells.length - 1) (line ++ tail) = ok cells tail := by
  induction hcells generalizing line with
  | nil => exact absurd rfl hline.ne_nil
  | @cons piece cell pieces cells hcell hcells ih =>
    obtain ⟨before, after, more, hbefore, hafter, rfl, hmore⟩ := hline.uncons
    rcases hmore with ⟨rfl, rfl⟩ | ⟨line', rfl, hline'⟩
    · cases hcells
      simp [readCells, hcell before after tail hbefore hafter htail.endsPiece]
    · obtain ⟨missing, hmissing⟩ := Nat.exists_eq_add_one.2 (length_cells_pos hcells hline')
      have hothers := ih hline'
      simp only [List.length_cons, hmissing, Nat.add_sub_cancel] at hothers ⊢
      simp only [List.append_assoc, List.cons_append,
        readCells_comma hcell hbefore hafter, hothers, map_ok]

theorem readRow_line {cells : List (Option Value)}
    (hread : ∀ x ∈ cells, ∀ v, x = some v → ReadsBack (textIn version v) v)
    (hcolumns : draft.columns ≠ []) (hlength : cells.length = draft.columns.length)
    (hline : LineOf (rowPieces version cells) line) (htail : EndsLine tail rest) :
    ∃ draft', readRow .data draft (line ++ tail) = ok draft' rest ∧
      draft'.tags = draft.tags ∧ draft'.columns = draft.columns ∧
      draft'.rows = draft.rows ++ [cells] := by
  obtain ⟨draft', hadd, hrest⟩ := GridDraft.exists_addRow? hlength
  refine ⟨draft', ?_, hrest⟩
  have hpos : draft.columns.length ≠ 0 := by
    intro hzero
    exact hcolumns (List.length_eq_zero_iff.1 hzero)
  have hne : cells ≠ [] := by
    rintro rfl
    exact hpos hlength.symm
  have hcells := readCells_line (forall₂_rowPieces hne hread) hline htail draft.columns.length
  rw [hlength] at hcells
  simp only [readRow, hpos, if_false, hcells, bind_ok, htail.head?_ne_comma,
    readLineEnd_endsLine htail, hadd, pass_ok]

/-- A row is read from a line that is not empty, and then the others. -/
theorem readRows_row {cs : List Char} (hstart : StartsLine cs) (draft : GridDraft) :
    readRows .data draft cs = (readRow .data draft cs).bind (readRows .data) := by
  obtain ⟨c, more, rfl, hnewline, hreturn⟩ := hstart
  exact readRows_line (not_or.2 ⟨hnewline, hreturn⟩) .data draft more

/-- Rows are read from their lines, and then what is behind these. -/
theorem readRows_through {rows : List (List (Option Value))}
    (hread : ∀ cells ∈ rows, ∀ x ∈ cells, ∀ v, x = some v → ReadsBack (textIn version v) v)
    (hcolumns : draft.columns ≠ [])
    (hlength : ∀ cells ∈ rows, cells.length = draft.columns.length)
    (hlines : List.Forall₂ LineOf (rows.map (rowPieces version)) lines)
    (hended : Ended lines rest text) :
    ∃ draft', readRows .data draft text = readRows .data draft' rest ∧
      draft'.tags = draft.tags ∧ draft'.columns = draft.columns ∧
      draft'.rows = draft.rows ++ rows := by
  induction rows generalizing draft lines text with
  | nil =>
    cases hlines
    cases hended
    exact ⟨draft, rfl, rfl, rfl, (List.append_nil _).symm⟩
  | cons cells rows ih =>
    cases hlines with
    | cons hline hlines =>
      obtain ⟨tail, text', rfl, htail, hended'⟩ := hended.uncons
      obtain ⟨draft₁, hrow, htags₁, hcolumns₁, hrows₁⟩ :=
        readRow_line (hread cells List.mem_cons_self) hcolumns
          (hlength cells List.mem_cons_self) hline htail
      have hlength₁ : ∀ cells ∈ rows, cells.length = draft₁.columns.length := by
        intro cells' hcells'
        rw [hcolumns₁]
        exact hlength cells' (List.mem_cons_of_mem _ hcells')
      obtain ⟨draft', hrows', htags', hcolumns', hrest'⟩ :=
        ih (fun cells' hcells' => hread cells' (List.mem_cons_of_mem _ hcells'))
          (hcolumns₁ ▸ hcolumns) hlength₁ hlines hended'
      refine ⟨draft', ?_, htags'.trans htags₁, hcolumns'.trans hcolumns₁, ?_⟩
      · have hstart := startsLine_rowPieces hline
        rw [readRows_row (hstart.append tail), hrow, bind_ok, hrows']
      · rw [hrest', hrows₁, List.append_assoc]
        rfl

theorem readRows_nil (draft : GridDraft) : readRows .data draft [] = ok draft [] := by
  rw [readRows.eq_def]

/-- A grid is read in any layout, and then what is behind its rows, with the draft of the grid
in hand. -/
theorem readGrid_through {g : Grid}
    (htags : ∀ e ∈ g.tags.entries, ReadsBack (textIn version e.2) e.2)
    (hcolumns : ∀ c ∈ g.columns, ∀ e ∈ c.tags.entries, ReadsBack (textIn version e.2) e.2)
    (hcells : ∀ cells ∈ g.rows, ∀ x ∈ cells, ∀ v, x = some v → ReadsBack (textIn version v) v)
    (hlaid : LaidOut version g rest text) :
    ∃ draft, draft.columns = g.columns ∧ draft.build? = .ok g ∧
      readGrid .data text =
        (readRows .data draft rest).bind fun draft rest => pass rest draft.build? := by
  obtain ⟨lines, hlines, hended⟩ := hlaid
  obtain ⟨header, others, hheader, hothers, rfl⟩ := List.forall₂_cons_left_iff.1 hlines
  obtain ⟨columns, rows, hcolumnLine, hrowLines, rfl⟩ := List.forall₂_cons_left_iff.1 hothers
  obtain ⟨tail, text₁, rfl, htail, hended₁⟩ := hended.uncons
  obtain ⟨tail', text₂, rfl, htail', hended₂⟩ := hended₁.uncons
  have hdistinct : (((GridDraft.empty.setTags g.tags).columns ++ g.columns).map
      Column.name).Nodup := g.distinct
  obtain ⟨draft₁, hcolumns₁, htags₁, hcols₁, hrows₁⟩ :=
    readColumns_line hcolumns rfl hdistinct hcolumnLine htail'
  have hcols₁ : draft₁.columns = g.columns := hcols₁
  have hnonempty : draft₁.columns ≠ [] := by
    rw [hcols₁]
    exact g.nonempty
  have hlength : ∀ cells ∈ g.rows, cells.length = draft₁.columns.length := by
    rw [hcols₁]
    exact g.rectangular
  obtain ⟨draft₂, hrows₂, htags₂, hcols₂, hrest₂⟩ :=
    readRows_through hcells hnonempty hlength hrowLines hended₂
  have hbuild : draft₂.build? = .ok g := by
    apply GridDraft.build?_eq_ok (htags₂.trans htags₁) (hcols₂.trans hcols₁)
    rw [hrest₂, hrows₁, List.nil_append]
  obtain ⟨before, after, more, hbefore, hafter, rfl, hmore⟩ := hheader.uncons
  obtain rfl : more = [] := by
    rcases hmore with ⟨-, rfl⟩ | ⟨line', -, hline'⟩
    · rfl
    · exact absurd rfl hline'.ne_nil
  have htagsEnd : readTags .data .empty (tagsText version g.tags.entries ++ (after ++ tail)) =
      ok g.tags tail := by
    rw [readTags_dict htags (htail.endsPiece.endsTags hafter) rfl,
      htail.endsPiece.skipSpaces_gap hafter]
  refine ⟨draft₂, hcols₂.trans hcols₁, hbuild, ?_⟩
  unfold readGrid headerText
  simp only [List.append_assoc, List.append_nil, readHeader_gap hbefore, readHeader_text, bind_ok,
    htagsEnd, readLineEnd_endsLine htail, hcolumns₁, readLineEnd_endsLine htail', hrows₂]

/-- A grid is read back in any layout, up to what ends its rows. -/
theorem readGrid_laidOut {g : Grid}
    (htags : ∀ e ∈ g.tags.entries, ReadsBack (textIn version e.2) e.2)
    (hcolumns : ∀ c ∈ g.columns, ∀ e ∈ c.tags.entries, ReadsBack (textIn version e.2) e.2)
    (hcells : ∀ cells ∈ g.rows, ∀ x ∈ cells, ∀ v, x = some v → ReadsBack (textIn version v) v)
    (hlaid : LaidOut version g rest text)
    (hend : ∀ draft, readRows .data draft rest = ok draft rest') :
    readGrid .data text = ok g rest' := by
  obtain ⟨draft, -, hbuild, hread⟩ := readGrid_through htags hcolumns hcells hlaid
  rw [hread, hend, bind_ok, hbuild, pass_ok]

/-- A written grid is read back, up to what ends its rows. -/
theorem readGrid_gridText {g : Grid}
    (htags : ∀ e ∈ g.tags.entries, ReadsBack (textIn version e.2) e.2)
    (hcolumns : ∀ c ∈ g.columns, ∀ e ∈ c.tags.entries, ReadsBack (textIn version e.2) e.2)
    (hcells : ∀ cells ∈ g.rows, ∀ x ∈ cells, ∀ v, x = some v → ReadsBack (textIn version v) v)
    (hend : ∀ draft, readRows .data draft rest = ok draft rest') :
    readGrid .data (gridText version g ++ rest) = ok g rest' :=
  readGrid_laidOut htags hcolumns hcells (laidOut_gridText version g rest) hend

/-- A grid comes back from its text if every value comes back from its own. -/
theorem toGrid?_gridText {g : Grid}
    (htags : ∀ e ∈ g.tags.entries, ReadsBack (textIn version e.2) e.2)
    (hcolumns : ∀ c ∈ g.columns, ∀ e ∈ c.tags.entries, ReadsBack (textIn version e.2) e.2)
    (hcells : ∀ cells ∈ g.rows, ∀ x ∈ cells, ∀ v, x = some v → ReadsBack (textIn version v) v) :
    toGrid? (String.ofList (gridText version g)) = .ok g := by
  apply run_eq_ok []
  rw [String.toList_ofList, ← List.append_nil (gridText version g)]
  exact readGrid_gridText htags hcolumns hcells readRows_nil

theorem toGrid?_of_zincSafe {g : Grid} (hsafe : g.everyValue Value.zincSafe = true) :
    toGrid? (String.ofList (gridText .v3 g)) = .ok g := by
  simp only [Grid.everyValue, Bool.and_eq_true, List.all_eq_true] at hsafe
  obtain ⟨⟨htags, hcolumns⟩, hcells⟩ := hsafe
  apply toGrid?_gridText (readsBack_of_everyValue htags)
  · intro c hc
    exact readsBack_of_everyValue (hcolumns c hc)
  · rintro cells hmem x hx v rfl
    exact readsBack_zinc v (hcells cells hmem _ hx)

/-- The text of a grid with safe values is read back as that grid. -/
theorem grid_reads_back (g : Grid) (hsafe : g.everyValue Value.zincSafe = true) :
    ∃ text, ofGrid? .v3 g = .ok text ∧ toGrid? text = .ok g :=
  ⟨String.ofList (gridText .v3 g), ofGrid?_v3 g, toGrid?_of_zincSafe hsafe⟩

theorem sample_grid_reads_back :
    Grid.sample.everyValue Value.zincSafe = true ∧
      ∃ text, ofGrid? .v3 .sample = .ok text ∧ toGrid? text = .ok .sample :=
  ⟨by decide, grid_reads_back .sample (by decide)⟩

end Zinc

end TagGrid
