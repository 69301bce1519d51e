import TagGrid.Grid.Draft
import TagGrid.Proofs.Grid.Equality

/-! # Drafts of grids

When a draft takes a column, a row or its completion, and what it is like afterwards.
-/

namespace TagGrid

namespace GridDraft

variable {b b' : GridDraft} {c : Column}

/-! ## What is taken -/

/-- A draft with the contents of a grid is built into that grid. -/
theorem build?_eq_ok {g : Grid} (htags : b.tags = g.tags) (hcolumns : b.columns = g.columns)
    (hrows : b.rows = g.rows) : b.build? = .ok g := by
  cases b
  cases g
  cases htags
  cases hcolumns
  cases hrows
  exact dif_neg ‹_›

theorem exists_addRow? {cells : List (Option Value)} (h : cells.length = b.columns.length) :
    ∃ b', b.addRow? cells = .ok b' ∧ b'.tags = b.tags ∧ b'.columns = b.columns ∧
      b'.rows = b.rows ++ [cells] := by
  unfold addRow?
  rw [dif_pos h]
  exact ⟨_, rfl, rfl, rfl, rfl⟩

theorem updateColumn_of_ne {name : String} {change : Dict → Dict} (h : c.name.text ≠ name) :
    updateColumn name change c = c := if_neg h

/-- A column that is added and then given its tags stands behind the others, and they stay
as they were. -/
theorem exists_addColumn? (hrows : b.rows = []) (hnew : c.name ∉ b.columns.map Column.name) :
    ∃ b', b.addColumn? c.name.text = .ok b' ∧
      (b'.setColumnTags c.name.text c.tags).tags = b.tags ∧
      (b'.setColumnTags c.name.text c.tags).columns = b.columns ++ [c] ∧
      (b'.setColumnTags c.name.text c.tags).rows = [] := by
  have hcolumn : (⟨⟨c.name.text, c.name.valid⟩, .empty⟩ : Column).name ∉
      b.columns.map Column.name := hnew
  have hothers : b.columns.map (updateColumn c.name.text fun _ => c.tags) = b.columns := by
    have hother : ∀ d ∈ b.columns, updateColumn c.name.text (fun _ => c.tags) d = id d := by
      intro d hd
      apply updateColumn_of_ne
      intro heq
      rw [← TagName.text_injective heq] at hnew
      exact hnew (List.mem_map_of_mem hd)
    rw [List.map_congr_left hother, List.map_id]
  unfold addColumn?
  rw [dif_pos hrows, dif_pos c.name.valid]
  simp only [dif_neg hcolumn]
  refine ⟨_, rfl, rfl, ?_, rfl⟩
  simp only [setColumnTags, List.map_append, hothers]
  simp [updateColumn]

theorem columns_setColumnTags_ne_nil (column : String) (tags : Dict) (h : b.columns ≠ []) :
    (b.setColumnTags column tags).columns ≠ [] := by
  unfold setColumnTags
  simpa using h

theorem exists_build? (h : b.columns ≠ []) : ∃ g, b.build? = .ok g := by
  unfold build?
  rw [dif_neg h]
  exact ⟨_, rfl⟩

/-! ## What was taken -/

theorem of_addColumn? {name : String} (h : b.addColumn? name = .ok b') :
    ∃ c : Column, c.tags = .empty ∧ b'.columns = b.columns ++ [c] ∧ b'.tags = b.tags := by
  unfold addColumn? at h
  split at h
  · split at h
    · simp only at h
      split at h
      · cases h
      · cases h
        exact ⟨_, rfl, rfl, rfl⟩
    · cases h
  · cases h

theorem of_addRow? {cells : List (Option Value)} (h : b.addRow? cells = .ok b') :
    b'.tags = b.tags ∧ b'.columns = b.columns ∧ b'.rows = b.rows ++ [cells] := by
  unfold addRow? at h
  split at h
  · cases h
    exact ⟨rfl, rfl, rfl⟩
  · cases h

theorem of_build? {g : Grid} (h : b.build? = .ok g) :
    g.tags = b.tags ∧ g.columns = b.columns ∧ g.rows = b.rows := by
  unfold build? at h
  split at h
  · cases h
  · cases h
    exact ⟨rfl, rfl, rfl⟩

/-- A column keeps its tags or is given new ones. -/
theorem mem_setColumnTags {column : String} {tags : Dict}
    (hc : c ∈ (b.setColumnTags column tags).columns) : c ∈ b.columns ∨ c.tags = tags := by
  obtain ⟨d, hd, rfl⟩ := List.mem_map.1 hc
  unfold updateColumn
  split
  · exact .inr rfl
  · exact .inl hd

end GridDraft

end TagGrid
