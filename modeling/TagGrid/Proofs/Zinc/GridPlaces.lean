import TagGrid.Proofs.Grid.Draft
import TagGrid.Proofs.Zinc.Places
import TagGrid.Zinc.GridReader

/-! # Where reading grids stops

The draft of a grid that is being read never refuses a row or its completion: a row has as
many cells as there are columns, and there is a column before there is anything to complete.
So what is wrong with a grid is always wrong at a place in the text.
-/

namespace TagGrid

namespace Zinc

open Outcome

variable {draft : GridDraft} {cs rest : List Char}

/-- Reads what comes behind the first word of a text that should be a grid. -/
def readBehindWord (word : String) (cs : List Char) : Outcome Unit :=
  if word = "ver" then
    (readChar ':' cs).bind fun _ rest =>
      (readStr rest).bind fun version rest =>
        if version = Version.v3.name ∨ version = Version.v2.name then ok () rest
        else failHere (.version version) rest
  else failHere (.gridStart word) cs

theorem readHeader_eq (cs : List Char) :
    readHeader cs = (readName (skipBlanks cs)).bind readBehindWord := rfl

theorem within_readBehindWord (word : String) (cs : List Char) :
    Within cs (readBehindWord word cs) := by
  unfold readBehindWord
  split
  · refine (within_readChar ':' cs).andThen fun _ rest => ?_
    refine (within_readStr rest).andThen fun version rest => ?_
    split
    · exact List.suffix_refl _
    · exact within_failHere trivial (List.suffix_refl _)
  · exact within_failHere trivial (List.suffix_refl _)

theorem within_readHeader (cs : List Char) : Within cs (readHeader cs) := by
  rw [readHeader_eq]
  exact ((within_readName _).mono (skipBlanks_suffix cs)).andThen within_readBehindWord

/-! ## Columns -/

theorem within_readColumn (setting : Setting) (draft : GridDraft) (cs : List Char) :
    Within cs (readColumn setting draft cs) := by
  unfold readColumn
  refine Within.mono ?_ (skipSpaces_suffix cs)
  refine (within_readName _).bind fun name rest _ hrest => ?_
  -- The place of a refusal is the name, which was taken already.
  refine (within_check (List.suffix_refl _) hrest _).andThen fun draft rest => ?_
  exact (within_readTags setting .empty rest).map _

theorem yields_readColumn (setting : Setting) (draft : GridDraft) (cs : List Char) :
    Yields (fun draft' => draft'.columns ≠ []) (readColumn setting draft cs) := by
  unfold readColumn
  refine Yields.last fun name rest => ?_
  refine Yields.bind (p := fun draft' => draft'.columns ≠ []) ?_ fun draft' rest hcolumns => ?_
  · refine Yields.check fun draft' hadd => ?_
    obtain ⟨c, -, hcolumns, -⟩ := GridDraft.of_addColumn? hadd
    rw [hcolumns]
    exact List.append_ne_nil_of_right_ne_nil _ (List.cons_ne_nil _ _)
  · exact Yields.last fun tags rest => GridDraft.columns_setColumnTags_ne_nil name tags hcolumns

theorem within_readColumns (setting : Setting) (draft : GridDraft) (cs : List Char) :
    Within cs (readColumns setting draft cs) := by
  have hfirst := within_readColumn setting
  fun_induction readColumns setting draft cs with
  | case1 draft cs fault place rest hcolumn => exact (hfirst draft cs).of_fail hcolumn
  | case2 draft cs draft' rest hcolumn rest' hcomma _ ih =>
    have hrest : rest' <:+ rest := (List.suffix_cons _ _).trans (suffix_of_skipSpaces hcomma)
    exact ih.mono (hrest.trans ((hfirst draft cs).suffix_of_ok hcolumn))
  | case3 draft cs draft' rest hcolumn rest' hcomma =>
    exact (suffix_of_skipSpaces hcomma).trans ((hfirst draft cs).suffix_of_ok hcolumn)
  | case4 draft cs draft' rest hcolumn =>
    exact (skipSpaces_suffix rest).trans ((hfirst draft cs).suffix_of_ok hcolumn)

theorem yields_readColumns (setting : Setting) (draft : GridDraft) (cs : List Char) :
    Yields (fun draft' => draft'.columns ≠ []) (readColumns setting draft cs) := by
  have hfirst := yields_readColumn setting
  fun_induction readColumns setting draft cs with
  | case1 => trivial
  | case2 _ _ _ _ _ _ _ _ ih => exact ih
  | case3 draft cs draft' rest hcolumn => exact (hfirst draft cs).of_ok hcolumn
  | case4 draft cs draft' rest hcolumn => exact (hfirst draft cs).of_ok hcolumn

/-! ## Rows -/

theorem within_readCell (setting : Setting) (cs : List Char) :
    Within cs (readCell setting cs) := by
  unfold readCell
  extract_lets cell
  have hcell : Within cs cell := by
    unfold cell
    split
    · exact List.nil_suffix
    · rename_i c rest heq
      split
      · exact suffix_of_skipSpaces heq
      · exact (within_readValue setting _).mono (suffix_of_skipSpaces heq)
  exact hcell.andThen fun value rest => skipSpaces_suffix rest

theorem within_readCells (setting : Setting) (columns missing : Nat) (cs : List Char) :
    Within cs (readCells setting columns missing cs) := by
  induction missing generalizing cs with
  | zero => exact (within_readCell setting cs).map _
  | succ missing ih =>
    unfold readCells
    refine (within_readCell setting cs).andThen fun cell rest => ?_
    split
    · rename_i rest
      exact ((ih rest).mono (List.suffix_cons _ _)).map _
    · exact within_failHere trivial (List.suffix_refl _)

theorem yields_readCells (setting : Setting) (columns missing : Nat) (cs : List Char) :
    Yields (fun cells => cells.length = missing + 1) (readCells setting columns missing cs) := by
  induction missing generalizing cs with
  | zero => exact Yields.last fun cell rest => rfl
  | succ missing ih =>
    unfold readCells
    refine Yields.last fun cell rest => ?_
    split
    · rename_i rest
      refine (ih rest).map fun cells hcells => ?_
      rw [List.length_cons, hcells]
    · trivial

/-- The cells that are read for a row are as many as there are columns. -/
theorem yields_rowCells (setting : Setting) (columns : Nat) (cs : List Char) :
    Yields (fun cells => cells.length = columns)
      (if columns = 0 then ok [] cs else readCells setting columns (columns - 1) cs) := by
  split
  · rename_i hzero
    exact hzero.symm
  · rename_i hpos
    have hcells := yields_readCells setting columns (columns - 1) cs
    rw [Nat.sub_add_cancel (Nat.pos_of_ne_zero hpos)] at hcells
    exact hcells

theorem within_rowCells (setting : Setting) (columns : Nat) (cs : List Char) :
    Within cs (if columns = 0 then ok [] cs else readCells setting columns (columns - 1) cs) := by
  split
  · exact List.suffix_refl _
  · exact within_readCells setting _ _ cs

theorem within_readRow (setting : Setting) (draft : GridDraft) (cs : List Char) :
    Within cs (readRow setting draft cs) := by
  unfold readRow
  refine (within_rowCells setting draft.columns.length cs).bind fun cells rest hread hrest => ?_
  have hlength := (yields_rowCells setting draft.columns.length cs).of_ok hread
  split
  · exact within_failHere trivial hrest
  · refine ((within_readLineEnd rest).mono hrest).andThen fun _ rest => ?_
    obtain ⟨draft', hadd, -⟩ := GridDraft.exists_addRow? hlength
    rw [hadd]
    exact List.suffix_refl _

theorem yields_readRow (setting : Setting) (draft : GridDraft) (cs : List Char) :
    Yields (fun draft' => draft'.columns = draft.columns) (readRow setting draft cs) := by
  unfold readRow
  refine Yields.last fun cells rest => ?_
  split
  · trivial
  · refine Yields.last fun _ rest => ?_
    exact Yields.pass fun draft' hadd => (GridDraft.of_addRow? hadd).2.1

theorem within_readRows (setting : Setting) (draft : GridDraft) (cs : List Char) :
    Within cs (readRows setting draft cs) := by
  have hfirst := within_readRow setting
  fun_induction readRows setting draft cs with
  | case1 => exact List.suffix_refl _
  | case2 => exact (within_readLineEnd _).map _
  | case3 draft c line _ fault place rest hrow => exact (hfirst draft _).of_fail hrow
  | case4 draft c line _ draft' rest hrow _ ih =>
    exact ih.mono ((hfirst draft _).suffix_of_ok hrow)
  | case5 draft c line _ draft' rest hrow => exact (hfirst draft _).suffix_of_ok hrow

theorem yields_readRows (setting : Setting) (draft : GridDraft) (cs : List Char) :
    Yields (fun draft' => draft'.columns = draft.columns) (readRows setting draft cs) := by
  have hfirst := yields_readRow setting
  fun_induction readRows setting draft cs with
  | case1 => exact rfl
  | case2 => exact Yields.last fun _ _ => rfl
  | case3 => trivial
  | case4 draft c line _ draft' rest hrow _ ih =>
    have hcolumns : draft'.columns = draft.columns := (hfirst draft _).of_ok hrow
    rw [hcolumns] at ih
    exact ih
  | case5 draft c line _ draft' rest hrow => exact (hfirst draft _).of_ok hrow

/-! ## Grids -/

/-- Reads what comes behind the version of a grid. -/
def readBehindHeader (setting : Setting) (cs : List Char) : Outcome Grid :=
  (readTags setting .empty cs).bind fun tags rest =>
    (readLineEnd rest).bind fun _ rest =>
      (readColumns setting (GridDraft.empty.setTags tags) rest).bind fun draft rest =>
        (readLineEnd rest).bind fun _ rest =>
          (readRows setting draft rest).bind fun draft rest => pass rest draft.build?

theorem readGrid_eq (setting : Setting) (cs : List Char) :
    readGrid setting cs = (readHeader cs).bind fun _ => readBehindHeader setting := rfl

theorem within_readBehindHeader (setting : Setting) (cs : List Char) :
    Within cs (readBehindHeader setting cs) := by
  unfold readBehindHeader
  refine (within_readTags setting .empty cs).andThen fun tags rest => ?_
  refine (within_readLineEnd rest).andThen fun _ rest => ?_
  refine (within_readColumns setting _ rest).bind fun draft rest' hread hrest' => ?_
  have hcolumns : draft.columns ≠ [] := (yields_readColumns setting _ rest).of_ok hread
  refine ((within_readLineEnd rest').mono hrest').andThen fun _ rest => ?_
  refine (within_readRows setting draft rest).bind fun draft' rest' hread hrest' => ?_
  have hkept : draft'.columns = draft.columns := (yields_readRows setting draft rest).of_ok hread
  obtain ⟨g, hbuild⟩ := GridDraft.exists_build? (hkept ▸ hcolumns)
  rw [hbuild]
  exact hrest'

theorem within_readGrid (setting : Setting) (cs : List Char) : Within cs (readGrid setting cs) := by
  rw [readGrid_eq]
  exact (within_readHeader cs).andThen fun _ => within_readBehindHeader setting

theorem within_readGrids (setting : Setting) (cs : List Char) :
    Within cs (readGrids setting cs) := by
  have hfirst : ∀ cs, Within cs (readGrid setting (skipBlanks cs)) := fun cs =>
    (within_readGrid setting _).mono (skipBlanks_suffix cs)
  fun_induction readGrids setting cs with
  | case1 => exact List.nil_suffix
  | case2 cs fault place rest _ hgrid => exact (hfirst cs).of_fail hgrid
  | case3 cs grid rest _ _ hgrid ih => exact (ih.mono ((hfirst cs).suffix_of_ok hgrid)).map _
  | case4 cs grid rest _ _ hgrid => exact (hfirst cs).suffix_of_ok hgrid

end Zinc

end TagGrid
