import TagGrid.Grid.Basic
import TagGrid.Proofs.Dict.Lookup

/-! # Columns found by name and by place

The table of the columns, the order of the columns and the cells of the rows agree on which
column is where.
-/

namespace TagGrid

section Tables

variable {α : Type} {table added : List (TagName × α)} {name : TagName}

theorem putEntry_of_not_mem (h : name ∉ table.map Prod.fst) (value : α) :
    putEntry name value table = table ++ [(name, value)] := by
  induction table with
  | nil => rfl
  | cons e table ih =>
    obtain ⟨hne, htable⟩ := not_or.1 (mt List.mem_cons.2 h)
    rw [putEntry, if_neg (Ne.symm hne), ih htable]
    rfl

/-- Entries under new names stay in the order in which they are put. -/
theorem foldl_putEntry (h : ((table ++ added).map Prod.fst).Nodup) :
    added.foldl (fun table e => putEntry e.1 e.2 table) table = table ++ added := by
  induction added generalizing table with
  | nil => rw [List.append_nil, List.foldl_nil]
  | cons e added ih =>
    have hassoc : table ++ e :: added = table ++ [e] ++ added := by simp
    have hnew : e.1 ∉ table.map Prod.fst := by
      intro hmem
      rw [List.map_append, List.nodup_append] at h
      exact h.2.2 _ hmem _ List.mem_cons_self rfl
    rw [List.foldl_cons, putEntry_of_not_mem hnew, hassoc]
    exact ih (hassoc ▸ h)

end Tables

namespace Grid

variable {g : Grid}

theorem nodup_placed (g : Grid) :
    ((g.columns.zipIdx.map PlacedColumn.entry).map Prod.fst).Nodup := by
  have hnames : (g.columns.zipIdx.map PlacedColumn.entry).map Prod.fst =
      (g.columns.zipIdx.map Prod.fst).map Column.name := by
    rw [List.map_map, List.map_map]
    rfl
  rw [hnames, List.zipIdx_map_fst]
  exact g.distinct

theorem columnTable_eq (g : Grid) : g.columnTable = g.columns.zipIdx.map PlacedColumn.entry :=
  foldl_putEntry g.nodup_placed

theorem columnAt?_eq (g : Grid) (i : Nat) :
    g.columnAt? i = g.columns[i]?.map fun c => ⟨c, i⟩ := by
  unfold columnAt?
  rw [columnTable_eq, List.getElem?_map, List.getElem?_zipIdx]
  cases g.columns[i]? with
  | none => rfl
  | some c => simp [PlacedColumn.entry]

theorem columnAt?_eq_some_iff {i : Nat} {c : PlacedColumn} :
    g.columnAt? i = some c ↔ g.columns[i]? = some c.toColumn ∧ c.index = i := by
  rw [columnAt?_eq, Option.map_eq_some_iff]
  constructor
  · rintro ⟨column, hcolumn, rfl⟩
    exact ⟨hcolumn, rfl⟩
  · rintro ⟨hcolumn, rfl⟩
    exact ⟨_, hcolumn, rfl⟩

theorem columnNamed?_eq_some_iff {name : String} {c : PlacedColumn} :
    g.columnNamed? name = some c ↔ g.columnAt? c.index = some c ∧ c.name.text = name := by
  unfold columnNamed?
  rw [columnTable_eq, find?_entry_eq_some_iff g.nodup_placed, columnAt?_eq_some_iff]
  constructor
  · rintro ⟨n, rfl, hmem⟩
    obtain ⟨⟨column, i⟩, hcolumn, heq⟩ := List.mem_map.1 hmem
    cases heq
    exact ⟨⟨List.mem_zipIdx_iff_getElem?.1 hcolumn, rfl⟩, rfl⟩
  · rintro ⟨⟨hcolumn, -⟩, rfl⟩
    exact ⟨_, rfl, List.mem_map.2 ⟨(_, _), List.mem_zipIdx_iff_getElem?.2 hcolumn, rfl⟩⟩

end Grid

namespace Row

variable {r : Row}

theorem get?_of_getElem? (hdistinct : (r.columns.map Column.name).Nodup)
    (hlength : r.cells.length = r.columns.length) {i : Nat} {c : Column}
    (hc : r.columns[i]? = some c) : r.get? c.name.text = r.cell? i := by
  obtain ⟨hi, -⟩ := List.getElem?_eq_some_iff.1 hc
  have hcell : r.cells[i]? = some r.cells[i] := List.getElem?_eq_getElem (hlength ▸ hi)
  have hzip : (r.columns.zip r.cells)[i]? = some (c, r.cells[i]) :=
    List.getElem?_zip_eq_some.2 ⟨hc, hcell⟩
  rw [get?_of_mem_zip hdistinct hlength (List.mem_of_getElem? hzip)]
  unfold cell?
  rw [hcell]
  rfl

theorem get?_of_unknown {name : String} (h : ∀ c ∈ r.columns, c.name.text ≠ name) :
    r.get? name = none := by
  unfold get?
  rw [List.find?_eq_none.2]
  · rfl
  · rintro ⟨c, cell⟩ hmem heq
    exact h c (List.of_mem_zip hmem).1 (eq_of_beq heq)

end Row

namespace Grid

variable {g : Grid}

/-- The table, the order of the columns and the cells of the rows agree. -/
structure Indexed (g : Grid) : Prop where
  columns : ∀ i, (g.columnAt? i).map PlacedColumn.toColumn = g.columns[i]?
  index : ∀ i c, g.columnAt? i = some c → c.index = i
  named : ∀ name c, g.columnNamed? name = some c ↔
    g.columnAt? c.index = some c ∧ c.name.text = name
  unique : ∀ i j c d, g.columnAt? i = some c → g.columnAt? j = some d →
    c.name.text = d.name.text → c = d
  cell : ∀ row ∈ g.rowViews, ∀ name c, g.columnNamed? name = some c →
    row.get? name = row.cell? c.index
  unknown : ∀ row ∈ g.rowViews, ∀ name, g.columnNamed? name = none → row.get? name = none

theorem index_of_columnAt? {i : Nat} {c : PlacedColumn} (h : g.columnAt? i = some c) :
    c.index = i :=
  (columnAt?_eq_some_iff.1 h).2

theorem columnNamed?_of_columnAt? {i : Nat} {c : PlacedColumn} (h : g.columnAt? i = some c) :
    g.columnNamed? c.name.text = some c := by
  cases index_of_columnAt? h
  exact columnNamed?_eq_some_iff.2 ⟨h, rfl⟩

theorem indexed (g : Grid) : g.Indexed where
  columns i := by
    rw [columnAt?_eq, Option.map_map]
    exact Option.map_id'
  index _ _ := index_of_columnAt?
  named _ _ := columnNamed?_eq_some_iff
  unique i j c d hc hd hname := by
    have hfound := columnNamed?_of_columnAt? hc
    rw [hname, columnNamed?_of_columnAt? hd] at hfound
    exact (Option.some.inj hfound).symm
  cell row hrow name c hnamed := by
    obtain ⟨cells, hcells, rfl⟩ := List.mem_map.1 hrow
    obtain ⟨hc, rfl⟩ := columnNamed?_eq_some_iff.1 hnamed
    exact Row.get?_of_getElem? g.distinct (g.rectangular cells hcells)
      (columnAt?_eq_some_iff.1 hc).1
  unknown row hrow name hnone := by
    obtain ⟨cells, -, rfl⟩ := List.mem_map.1 hrow
    apply Row.get?_of_unknown
    rintro c hc rfl
    obtain ⟨i, hi⟩ := List.getElem?_of_mem hc
    have hplaced : g.columnAt? i = some ⟨c, i⟩ := columnAt?_eq_some_iff.2 ⟨hi, rfl⟩
    have hfound := columnNamed?_of_columnAt? hplaced
    rw [hnone] at hfound
    cases hfound

end Grid

end TagGrid
