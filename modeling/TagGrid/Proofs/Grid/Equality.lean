import Mathlib.Data.List.Nodup
import Mathlib.Data.List.Perm.Subperm
import TagGrid.Grid.Basic

/-! # The equality of the data model

Equal dictionaries have the same tag names, and everything is equal to itself, not-a-number
included.
-/

namespace TagGrid

/-- A search for the key of an item finds the item if no other one has its key. -/
theorem find?_of_mem {α : Type} {key : α → String} {items : List α} {x : α}
    (hdistinct : (items.map key).Nodup) (hx : x ∈ items) :
    items.find? (fun y => key y == key x) = some x := by
  cases hfind : items.find? (fun y => key y == key x) with
  | none => exact absurd (beq_self_eq_true _) (List.find?_eq_none.1 hfind x hx)
  | some y =>
    have hkey := List.find?_some hfind
    have hy := List.mem_of_find?_eq_some hfind
    rw [List.inj_on_of_nodup_map hdistinct hy hx (eq_of_beq hkey)]

theorem TagName.text_injective : Function.Injective TagName.text := by
  intro a b h
  cases a
  cases b
  cases h
  rfl

/-! ## Values -/

mutual

theorem Value.same_refl (v : Value) : v.same v = true := by
  cases v with
  | marker | remove | na => rfl
  | bool b => exact beq_self_eq_true b
  | number n => exact Bool.and_eq_true_iff.2 ⟨beq_self_eq_true _, beq_self_eq_true _⟩
  | str s => exact beq_self_eq_true s
  | uri s => exact beq_self_eq_true s
  | ref r => exact beq_self_eq_true r.id
  | date d => exact beq_self_eq_true d
  | time t => exact beq_self_eq_true t
  | dateTime t => exact beq_self_eq_true t
  | bin m => exact beq_self_eq_true m
  | coord c => exact beq_self_eq_true c
  | symbol s => exact beq_self_eq_true s
  | list items => exact Value.sameItems_refl items
  | typed t => exact beq_self_eq_true t
termination_by sizeOf v

theorem Value.sameItems_refl (items : List Value) : Value.sameItems items items = true := by
  cases items with
  | nil => rfl
  | cons v items => exact Bool.and_eq_true_iff.2 ⟨Value.same_refl v, Value.sameItems_refl items⟩
termination_by sizeOf items

end

/-! ## Dictionaries -/

namespace Dict

variable {a b d : Dict} {name : String}

theorem nodup_texts (d : Dict) : (d.entries.map fun e => e.1.text).Nodup := by
  refine List.pairwise_map.2 (d.sorted.imp ?_)
  intro e f hlt heq
  exact String.lt_irrefl _ (heq ▸ hlt)

theorem get?_of_mem {e : TagName × Value} (he : e ∈ d.entries) :
    d.get? e.1.text = some e.2 := by
  have hfind := find?_of_mem d.nodup_texts he
  unfold get?
  rw [hfind]
  rfl

theorem has_iff_mem : d.has name = true ↔ name ∈ d.entries.map fun e => e.1.text := by
  constructor
  · intro h
    obtain ⟨v, hv⟩ := Option.isSome_iff_exists.1 h
    obtain ⟨e, he, -⟩ := Option.map_eq_some_iff.1 hv
    have hname := List.find?_some he
    exact List.mem_map.2 ⟨e, List.mem_of_find?_eq_some he, eq_of_beq hname⟩
  · intro h
    obtain ⟨e, he, rfl⟩ := List.mem_map.1 h
    exact Option.isSome_of_eq_some (get?_of_mem he)

theorem same_refl (d : Dict) : d.same d = true := by
  refine Bool.and_eq_true_iff.2 ⟨beq_self_eq_true _, List.all_eq_true.2 ?_⟩
  intro e he
  rw [get?_of_mem he]
  exact e.2.same_refl

/-- As many names on both sides, and those of one side on the other. -/
theorem has_of_same (h : a.same b = true) : a.has name = b.has name := by
  obtain ⟨hsize, hall⟩ := Bool.and_eq_true_iff.1 h
  have hsubset : (a.entries.map fun e => e.1.text) ⊆ b.entries.map fun e => e.1.text := by
    intro text htext
    obtain ⟨e, he, rfl⟩ := List.mem_map.1 htext
    have hfound := List.all_eq_true.1 hall e he
    refine has_iff_mem.1 ?_
    cases hget : b.get? e.1.text with
    | none =>
      rw [hget] at hfound
      cases hfound
    | some v => exact Option.isSome_of_eq_some hget
  have hlength : (b.entries.map fun e => e.1.text).length ≤
      (a.entries.map fun e => e.1.text).length := by
    rw [List.length_map, List.length_map]
    exact Nat.le_of_eq (eq_of_beq hsize).symm
  have hperm := (List.Nodup.subperm a.nodup_texts hsubset).perm_of_length_le hlength
  rw [Bool.eq_iff_iff, has_iff_mem, has_iff_mem]
  exact hperm.mem_iff

end Dict

/-! ## Columns, rows and grids -/

theorem Column.same_refl (c : Column) : c.same c = true :=
  Bool.and_eq_true_iff.2 ⟨beq_self_eq_true _, c.tags.same_refl⟩

namespace Row

variable {r : Row}

/-- A row answers for the name of a column with the cell below the column. -/
theorem get?_of_mem_zip (hdistinct : (r.columns.map Column.name).Nodup)
    (hlength : r.cells.length = r.columns.length) {c : Column} {cell : Option Value}
    (hcell : (c, cell) ∈ r.columns.zip r.cells) : r.get? c.name.text = cell := by
  have hnames : ((r.columns.zip r.cells).map fun p => p.1.name.text).Nodup := by
    have hcolumns : (r.columns.zip r.cells).map Prod.fst = r.columns :=
      List.map_fst_zip (Nat.le_of_eq hlength.symm)
    have htexts := hdistinct.map TagName.text_injective
    rw [← hcolumns, List.map_map, List.map_map] at htexts
    exact htexts
  have hfind := find?_of_mem hnames hcell
  unfold get?
  rw [hfind]
  rfl

theorem get?_of_mem (hdistinct : (r.columns.map Column.name).Nodup)
    (hlength : r.cells.length = r.columns.length) {e : TagName × Value} (he : e ∈ r.tags) :
    r.get? e.1.text = some e.2 := by
  obtain ⟨⟨c, cell⟩, hcell, hsome⟩ := List.mem_filterMap.1 he
  cases cell with
  | none => cases hsome
  | some v =>
    cases hsome
    exact get?_of_mem_zip hdistinct hlength hcell

theorem same_refl (hdistinct : (r.columns.map Column.name).Nodup)
    (hlength : r.cells.length = r.columns.length) : r.same r = true := by
  refine Bool.and_eq_true_iff.2 ⟨beq_self_eq_true _, List.all_eq_true.2 ?_⟩
  intro e he
  rw [get?_of_mem hdistinct hlength he]
  exact e.2.same_refl

end Row

namespace Grid

theorem pairwise_refl {α : Type} {related : α → α → Bool} {xs : List α}
    (h : ∀ x ∈ xs, related x x = true) : pairwise related xs xs = true := by
  refine Bool.and_eq_true_iff.2 ⟨beq_self_eq_true _, ?_⟩
  induction xs with
  | nil => rfl
  | cons x xs ih =>
    obtain ⟨hx, hxs⟩ := List.forall_mem_cons.1 h
    exact Bool.and_eq_true_iff.2 ⟨hx, ih hxs⟩

/-- Every item on the right has a related one on the left. -/
theorem exists_of_pairwise {α : Type} {related : α → α → Bool} {xs ys : List α} {y : α}
    (h : pairwise related xs ys = true) (hy : y ∈ ys) : ∃ x ∈ xs, related x y = true := by
  obtain ⟨hlength, hall⟩ := Bool.and_eq_true_iff.1 h
  have hright : (xs.zip ys).map Prod.snd = ys :=
    List.map_snd_zip (Nat.le_of_eq (eq_of_beq hlength).symm)
  rw [← hright] at hy
  obtain ⟨⟨x, y⟩, hpair, rfl⟩ := List.mem_map.1 hy
  exact ⟨x, (List.of_mem_zip hpair).1, List.all_eq_true.1 hall (x, y) hpair⟩

theorem same_refl (g : Grid) : g.same g = true := by
  have hcolumns : pairwise Column.same g.columns g.columns = true :=
    pairwise_refl fun c _ => c.same_refl
  have hrows : pairwise Row.same g.rowViews g.rowViews = true := by
    refine pairwise_refl fun r hr => ?_
    obtain ⟨cells, hcells, rfl⟩ := List.mem_map.1 hr
    exact Row.same_refl g.distinct (g.rectangular cells hcells)
  exact Bool.and_eq_true_iff.2 ⟨Bool.and_eq_true_iff.2 ⟨g.tags.same_refl, hcolumns⟩, hrows⟩

end Grid

end TagGrid
