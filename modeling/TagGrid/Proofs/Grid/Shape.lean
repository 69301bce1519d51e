import TagGrid.Proofs.Grid.Equality
import TagGrid.Proofs.Zinc.Safe

/-! # Grids of one shape

Two grids have one shape if they have tags of the same names, columns of the same names in
the same order, and values in the same cells. Each value then has a counterpart, and if the
grids are equal, every value equals its counterpart.
-/

namespace TagGrid

variable {R S : Value → Value → Prop} {p : Value → Bool}

/-- Tags of the same names with related values. -/
def Dict.Related (R : Value → Value → Prop) (a b : Dict) : Prop :=
  List.Forall₂ (fun e f => e.1 = f.1 ∧ R e.2 f.2) a.entries b.entries

/-- Columns of the same name with related tags. -/
def Column.Related (R : Value → Value → Prop) (a b : Column) : Prop :=
  a.name = b.name ∧ a.tags.Related R b.tags

/-- Rows with values in the same cells, which are related. -/
def RelatedCells (R : Value → Value → Prop) (xs ys : List (Option Value)) : Prop :=
  List.Forall₂ (Option.Rel R) xs ys

/-- Grids of one shape with related values. -/
structure Grid.Related (R : Value → Value → Prop) (a b : Grid) : Prop where
  tags : a.tags.Related R b.tags
  columns : List.Forall₂ (Column.Related R) a.columns b.columns
  rows : List.Forall₂ (RelatedCells R) a.rows b.rows

/-! ## Equal grids of one shape -/

theorem Dict.Related.of_same {a b : Dict} (h : a.Related R b) (hsame : a.same b = true) :
    a.Related (fun w v => R w v ∧ w.same v = true) b := by
  obtain ⟨-, hall⟩ := Bool.and_eq_true_iff.1 hsame
  obtain ⟨hlength, hrelated⟩ := List.forall₂_iff_zip.1 h
  refine List.forall₂_iff_zip.2 ⟨hlength, ?_⟩
  rintro ⟨n, w⟩ ⟨m, v⟩ hmem
  obtain ⟨rfl, hR⟩ : n = m ∧ R w v := hrelated hmem
  obtain ⟨he, hf⟩ := List.of_mem_zip hmem
  have hfound := List.all_eq_true.1 hall _ he
  have hget : b.get? n.text = some v := get?_of_mem hf
  simp only [hget] at hfound
  exact ⟨rfl, hR, hfound⟩

theorem Column.Related.of_same {a b : Column} (h : a.Related R b) (hsame : a.same b = true) :
    a.Related (fun w v => R w v ∧ w.same v = true) b :=
  ⟨h.1, h.2.of_same (Bool.and_eq_true_iff.1 hsame).2⟩

theorem Grid.forall₂_of_pairwise {α : Type} {related : α → α → Bool} {r s : α → α → Prop}
    {xs ys : List α} (h : List.Forall₂ r xs ys) (hrelated : pairwise related xs ys = true)
    (hs : ∀ x ∈ xs, ∀ y ∈ ys, r x y → related x y = true → s x y) : List.Forall₂ s xs ys := by
  obtain ⟨-, hall⟩ := Bool.and_eq_true_iff.1 hrelated
  obtain ⟨hlength, hr⟩ := List.forall₂_iff_zip.1 h
  refine List.forall₂_iff_zip.2 ⟨hlength, ?_⟩
  intro x y hmem
  obtain ⟨hx, hy⟩ := List.of_mem_zip hmem
  exact hs x hx y hy (hr hmem) (List.all_eq_true.1 hall _ hmem)

/-- The cells of a row stand below its columns. -/
theorem Row.getElem_mem_zip (r : Row) {i : Nat} (hcolumn : i < r.columns.length)
    (hcell : i < r.cells.length) :
    (r.columns[i], r.cells[i]) ∈ r.columns.zip r.cells := by
  have hlt : i < (r.columns.zip r.cells).length := by
    rw [List.length_zip]
    omega
  rw [← List.getElem_zip]
  exact List.getElem_mem hlt

/-- Equal rows have equal cells below columns of the same names. -/
theorem Row.relatedCells_of_same {a b : Row} (hcells : RelatedCells R a.cells b.cells)
    (hcolumns : List.Forall₂ (Column.Related S) a.columns b.columns)
    (hdistinct : (b.columns.map Column.name).Nodup) (hlength : b.cells.length = b.columns.length)
    (hsame : a.same b = true) :
    RelatedCells (fun w v => R w v ∧ w.same v = true) a.cells b.cells := by
  obtain ⟨-, hall⟩ := Bool.and_eq_true_iff.1 hsame
  obtain ⟨hlengths, hrelated⟩ := List.forall₂_iff_get.1 hcells
  obtain ⟨hcolumnLengths, hnames⟩ := List.forall₂_iff_get.1 hcolumns
  refine List.forall₂_iff_get.2 ⟨hlengths, ?_⟩
  intro i hi hi'
  have hj : i < a.columns.length := by omega
  have hj' : i < b.columns.length := by omega
  have hcell : Option.Rel R a.cells[i] b.cells[i] := hrelated i hi hi'
  have hname : a.columns[i].name = b.columns[i].name := (hnames i hj hj').1
  -- Rows are compared by name, and the name of a cell is that of the column above it.
  have hmem := a.getElem_mem_zip hj hi
  have hget := get?_of_mem_zip hdistinct hlength (b.getElem_mem_zip hj' hi')
  show Option.Rel _ a.cells[i] b.cells[i]
  cases hx : a.cells[i] with
  | none =>
    rw [hx] at hcell
    cases hy : b.cells[i] with
    | none => exact .none
    | some v =>
      rw [hy] at hcell
      cases hcell
  | some w =>
    rw [hx] at hcell hmem
    cases hy : b.cells[i] with
    | none =>
      rw [hy] at hcell
      cases hcell
    | some v =>
      rw [hy] at hcell hget
      have htag : (a.columns[i].name, w) ∈ a.tags := List.mem_filterMap.2 ⟨_, hmem, rfl⟩
      have hfound := List.all_eq_true.1 hall _ htag
      simp only [hname, hget] at hfound
      cases hcell with
      | some hR => exact .some ⟨hR, hfound⟩

/-- In equal grids of one shape, each value equals its counterpart. -/
theorem Grid.Related.of_same {a b : Grid} (h : a.Related R b) (hsame : a.same b = true) :
    a.Related (fun w v => R w v ∧ w.same v = true) b := by
  simp only [Grid.same, Bool.and_eq_true] at hsame
  obtain ⟨⟨htags, hcolumns⟩, hrows⟩ := hsame
  refine ⟨h.tags.of_same htags, ?_, ?_⟩
  · exact forall₂_of_pairwise h.columns hcolumns fun _ _ _ _ hrelated => hrelated.of_same
  · have hviews : List.Forall₂ (fun r s => RelatedCells R r.cells s.cells) a.rowViews b.rowViews := by
      simpa [rowViews, List.forall₂_map_left_iff, List.forall₂_map_right_iff] using h.rows
    have hequal : List.Forall₂
        (fun r s => RelatedCells (fun w v => R w v ∧ w.same v = true) r.cells s.cells)
        a.rowViews b.rowViews := by
      refine forall₂_of_pairwise hviews hrows ?_
      intro r hr s hs hcells hsame
      obtain ⟨xs, -, rfl⟩ := List.mem_map.1 hr
      obtain ⟨ys, hys, rfl⟩ := List.mem_map.1 hs
      exact Row.relatedCells_of_same hcells h.columns b.distinct (b.rectangular ys hys) hsame
    simpa [rowViews, List.forall₂_map_left_iff, List.forall₂_map_right_iff] using hequal

/-! ## What all counterparts have -/

theorem forall_mem_of_forall₂ {α : Type} {r : α → α → Prop} {q : α → Prop} {xs ys : List α}
    (h : List.Forall₂ r xs ys) (hq : ∀ x y, r x y → q y) : ∀ y ∈ ys, q y := by
  induction h with
  | nil => exact List.forall_mem_nil q
  | cons hxy _ ih => exact List.forall_mem_cons.2 ⟨hq _ _ hxy, ih⟩

theorem Dict.Related.everyValue {a b : Dict} (h : a.Related R b)
    (hp : ∀ w v, R w v → p v = true) : b.everyValue p = true :=
  List.all_eq_true.2 (forall_mem_of_forall₂ h fun e f hef => hp e.2 f.2 hef.2)

theorem Grid.Related.everyValue {a b : Grid} (h : a.Related R b)
    (hp : ∀ w v, R w v → p v = true) : b.everyValue p = true := by
  simp only [Grid.everyValue, Bool.and_eq_true, List.all_eq_true]
  refine ⟨⟨h.tags.everyValue hp, ?_⟩, ?_⟩
  · exact forall_mem_of_forall₂ h.columns fun c d hcd => hcd.2.everyValue hp
  · refine forall_mem_of_forall₂ h.rows fun xs ys hcells => ?_
    refine forall_mem_of_forall₂ hcells fun x y hxy => ?_
    cases hxy with
    | some hR => exact hp _ _ hR
    | none => rfl

end TagGrid
