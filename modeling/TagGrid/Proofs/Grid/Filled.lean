import TagGrid.Proofs.Grid.Calls

/-! # Tables in one go

Columns with names of their own and rows with a cell for each of them are all accepted, so a
draft that is filled with them becomes the grid of exactly this table.
-/

namespace TagGrid.GridDraft

variable {b : GridDraft}

theorem run_append (calls more : List Call) : b.run (calls ++ more) = (b.run calls).run more :=
  List.foldl_append

theorem perform_tag (b : GridDraft) (name : TagName) (value : Value) :
    (b.perform (.tags (.add name.text value))).2 = b.setTags (b.tags.set name value) := by
  show b.setTags (settle _ ((DictDraft.ofDict b.tags).add? name.text value)).2.freeze = _
  rw [DictDraft.add?_eq, dif_pos name.valid]
  show b.setTags ((DictDraft.ofDict b.tags).set name value).freeze = _
  rw [DictDraft.freeze_set, DictDraft.freeze_ofDict]

theorem perform_column (hrows : b.rows = []) {name : TagName}
    (hnew : name ∉ b.columns.map Column.name) :
    (b.perform (.column name.text [])).2.tags = b.tags ∧
      (b.perform (.column name.text [])).2.columns = b.columns ++ [⟨name, .empty⟩] ∧
      (b.perform (.column name.text [])).2.rows = [] := by
  obtain ⟨added, hadded, htags, hcolumns, hempty⟩ :=
    exists_addColumn? (c := ⟨name, .empty⟩) hrows hnew
  have hdeclare : b.declare? name.text (DictDraft.empty.run []) =
      .ok (added.setColumnTags name.text .empty) := by
    have hnone : (DictDraft.empty.run []).freeze = Dict.empty := DictDraft.freeze_empty
    rw [declare?_eq, hadded, hnone]
    rfl
  show (settle b (b.declare? name.text (DictDraft.empty.run []))).2.tags = _ ∧ _
  rw [perform, hdeclare]
  exact ⟨htags, hcolumns, hempty⟩

/-- While there are no rows, all columns under new names are added. -/
theorem run_columns (names : List TagName) (hrows : b.rows = [])
    (hnew : (b.columns.map Column.name ++ names).Nodup) :
    let filled := b.run (names.map fun name => .column name.text [])
    filled.tags = b.tags ∧ filled.columns = b.columns ++ names.map (⟨·, .empty⟩) ∧
      filled.rows = [] := by
  induction names generalizing b with
  | nil => exact ⟨rfl, (List.append_nil _).symm, hrows⟩
  | cons name names ih =>
    have hname : name ∉ b.columns.map Column.name := fun hmem =>
      (List.nodup_append.1 hnew).2.2 _ hmem _ List.mem_cons_self rfl
    obtain ⟨htags, hcolumns, hempty⟩ := perform_column hrows hname
    have hrest : ((b.perform (.column name.text [])).2.columns.map Column.name ++ names).Nodup := by
      rw [hcolumns, List.map_append, List.append_assoc]
      exact hnew
    obtain ⟨htags', hcolumns', hempty'⟩ := ih hempty hrest
    refine ⟨htags'.trans htags, hcolumns'.trans ?_, hempty'⟩
    rw [hcolumns, List.append_assoc]
    rfl

/-- All rows of the right length are added. -/
theorem run_rows (rows : List (List (Option Value)))
    (hlength : ∀ cells ∈ rows, cells.length = b.columns.length) :
    let filled := b.run (rows.map .row)
    filled.tags = b.tags ∧ filled.columns = b.columns ∧ filled.rows = b.rows ++ rows := by
  induction rows generalizing b with
  | nil => exact ⟨rfl, rfl, (List.append_nil _).symm⟩
  | cons cells rows ih =>
    obtain ⟨hcells, hrest⟩ := List.forall_mem_cons.1 hlength
    obtain ⟨added, hadded, htags, hcolumns, hrows⟩ := exists_addRow? hcells
    have hperform : (b.perform (.row cells)).2 = added := by
      rw [perform, hadded]
      rfl
    rw [List.map_cons, run, List.foldl_cons, hperform]
    obtain ⟨htags', hcolumns', hrows'⟩ := ih (b := added) (hcolumns ▸ hrest)
    refine ⟨htags'.trans htags, hcolumns'.trans hcolumns, hrows'.trans ?_⟩
    rw [hrows, List.append_assoc]
    rfl

theorem buildOrEmpty_eq {g : Grid} (hbuild : b.build? = .ok g) : b.buildOrEmpty = g := by
  rw [buildOrEmpty, hbuild]

/-- No call of a table is refused, and its grid is finished. -/
theorem fill_eq (names : List TagName) (rows : List (List (Option Value)))
    (hcolumns : b.columns = []) (hrows : b.rows = []) (hnames : names ≠ [])
    (hdistinct : names.Nodup) (hlength : ∀ cells ∈ rows, cells.length = names.length) :
    let g := (b.run (fill names rows)).buildOrEmpty
    g.tags = b.tags ∧ g.columns = names.map (⟨·, .empty⟩) ∧ g.rows = rows := by
  obtain ⟨htags, hdeclared, hempty⟩ := run_columns names hrows (hcolumns ▸ hdistinct)
  rw [hcolumns, List.nil_append] at hdeclared
  obtain ⟨htags', hdeclared', hfilled⟩ := run_rows rows
    (b := b.run (names.map fun name => .column name.text [])) (by simpa [hdeclared] using hlength)
  rw [← run_append] at htags' hdeclared' hfilled
  have hsome : (b.run (fill names rows)).columns ≠ [] := by
    show (b.run (_ ++ _)).columns ≠ []
    rw [hdeclared', hdeclared]
    exact mt List.map_eq_nil_iff.1 hnames
  obtain ⟨g, hbuild⟩ := exists_build? hsome
  obtain ⟨hgtags, hgcolumns, hgrows⟩ := of_build? hbuild
  rw [buildOrEmpty_eq hbuild]
  refine ⟨hgtags.trans (htags'.trans htags), hgcolumns.trans (hdeclared'.trans hdeclared), ?_⟩
  rw [hempty, List.nil_append] at hfilled
  exact hgrows.trans hfilled

end TagGrid.GridDraft
