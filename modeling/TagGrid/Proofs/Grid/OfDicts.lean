import TagGrid.Grid.Draft
import TagGrid.Proofs.Grid.Equivalence
import TagGrid.Proofs.Grid.Filled

/-! # Grids of dictionaries and back

A grid of dictionaries holds them all: every tag has a column, none is held twice, and the
rows read as the dictionaries that they were made of. The dictionaries of a grid make a grid
with equal rows.
-/

namespace TagGrid

/-! ## Names of tags -/

theorem Dict.mem_names_iff {d : Dict} {name : TagName} : name ∈ d.names ↔ d.has name.text = true := by
  have htexts : (d.entries.map fun e => e.1.text) = d.names.map TagName.text := by
    rw [names, List.map_map]
    rfl
  rw [has_iff_mem, htexts, List.mem_map_of_injective TagName.text_injective]

theorem Dict.get?_addAll (d other : Dict) (name : String) :
    (d.addAll other).get? name = (other.get? name).or (d.get? name) := by
  have hadd := (DictDraft.ofDict d).freeze_addAll other
  rw [DictDraft.freeze_ofDict] at hadd
  rw [← hadd, DictDraft.get?_freeze, DictDraft.get?_addAll]
  rfl

theorem Dict.has_addAll (d other : Dict) (name : String) :
    (d.addAll other).has name = (other.has name || d.has name) := by
  rw [has, get?_addAll, Option.isSome_or]
  rfl

namespace Grid

variable {dicts : List (Option Dict)} {names : List TagName}

/-- Whether any of the dictionaries has a tag of the name. -/
def SomeHas (dicts : List (Option Dict)) (name : String) : Prop :=
  ∃ d, some d ∈ dicts ∧ d.has name = true

theorem has_foldl_addAll (acc : Dict) (name : String) :
    (dicts.foldl (fun acc d => acc.addAll (d.getD .empty)) acc).has name = true ↔
      acc.has name = true ∨ SomeHas dicts name := by
  induction dicts generalizing acc with
  | nil => simp [SomeHas]
  | cons d dicts ih =>
    rw [List.foldl_cons, ih, Dict.has_addAll, Bool.or_eq_true]
    unfold SomeHas
    cases d with
    | none =>
      have hempty : (Dict.empty).has name = false := rfl
      simp [hempty]
    | some d =>
      simp only [Option.getD_some, List.mem_cons, Option.some.injEq]
      grind

theorem mem_unionNames_iff {name : TagName} :
    name ∈ unionNames dicts ↔ SomeHas dicts name.text := by
  have hempty : (Dict.empty).has name.text = false := rfl
  rw [unionNames, Dict.mem_names_iff, has_foldl_addAll, hempty]
  simp

theorem exists_unionName {name : String} (h : SomeHas dicts name) :
    ∃ n ∈ unionNames dicts, n.text = name := by
  obtain ⟨d, hd, hhas⟩ := h
  obtain ⟨e, he, rfl⟩ := List.mem_map.1 (Dict.has_iff_mem.1 hhas)
  exact ⟨e.1, mem_unionNames_iff.2 ⟨d, hd, hhas⟩, rfl⟩

/-! ## The order of the columns -/

theorem mem_columnOrder_iff {name : TagName} : name ∈ columnOrder names ↔ name ∈ names := by
  unfold columnOrder
  simp only [List.mem_append, List.mem_filter, bne_iff_ne, beq_iff_eq, Bool.and_eq_true]
  grind

theorem nodup_columnOrder (h : names.Nodup) : (columnOrder names).Nodup := by
  unfold columnOrder
  refine List.nodup_append.2 ⟨List.nodup_append.2 ⟨h.filter _, h.filter _, ?_⟩, h.filter _, ?_⟩
  · rintro a ha b hb rfl
    simp_all [List.mem_filter]
  · rintro a ha b hb rfl
    have hne : ¬ ("mod" = "id") := by decide
    simp_all [List.mem_filter]

/-- Of names that differ, those of one text are one name or none. -/
theorem filter_text_eq (h : names.Nodup) {name : TagName} (hmem : name ∈ names) :
    names.filter (·.text == name.text) = [name] := by
  have hall : ∀ n ∈ names.filter (·.text == name.text), n = name := by
    intro n hn
    exact TagName.text_injective (eq_of_beq (List.mem_filter.1 hn).2)
  have hname : name ∈ names.filter (·.text == name.text) :=
    List.mem_filter.2 ⟨hmem, beq_self_eq_true _⟩
  have hreplicate := List.eq_replicate_iff.2 ⟨rfl, hall⟩
  have hcount := List.count_eq_one_of_mem (h.filter (·.text == name.text)) hname
  rw [hreplicate, List.count_replicate_self] at hcount
  rw [hreplicate, hcount]
  rfl

theorem head?_columnOrder (h : names.Nodup) {name : TagName} (hmem : name ∈ names)
    (hid : name.text = "id") : (columnOrder names).head? = some name := by
  unfold columnOrder
  rw [← hid, filter_text_eq h hmem]
  rfl

theorem getLast?_columnOrder (h : names.Nodup) {name : TagName} (hmem : name ∈ names)
    (hmod : name.text = "mod") : (columnOrder names).getLast? = some name := by
  unfold columnOrder
  rw [← hmod, filter_text_eq h hmem, List.getLast?_concat]

theorem filter_columnOrder (names : List TagName) :
    (columnOrder names).filter (fun n => n.text != "id" && n.text != "mod") =
      names.filter fun n => n.text != "id" && n.text != "mod" := by
  unfold columnOrder
  rw [List.filter_append, List.filter_append]
  have hid : (names.filter (·.text == "id")).filter
      (fun n => n.text != "id" && n.text != "mod") = [] := by
    simp +contextual
  have hmod : (names.filter (·.text == "mod")).filter
      (fun n => n.text != "id" && n.text != "mod") = [] := by
    simp
  rw [hid, hmod, List.filter_filter, List.nil_append, List.append_nil]
  simp

example : (columnOrder [⟨"a", rfl⟩, ⟨"id", rfl⟩, ⟨"mod", rfl⟩, ⟨"z", rfl⟩]).map TagName.text =
    ["id", "a", "z", "mod"] := by decide

/-- The names of the columns of dictionaries: those of all their tags, or the one name
`empty` if there are none. They differ, `id` stands first and `mod` last, and the others
ascend between them. -/
structure ColumnsOf (dicts : List (Option Dict)) (names : List String) : Prop where
  union : (∃ name, SomeHas dicts name) → ∀ name, name ∈ names ↔ SomeHas dicts name
  empty : (∀ name, ¬ SomeHas dicts name) → names = ["empty"]
  distinct : names.Nodup
  first : "id" ∈ names → names.head? = some "id"
  last : "mod" ∈ names → names.getLast? = some "mod"
  ascending : (names.filter fun name => name != "id" && name != "mod").Pairwise (· < ·)

theorem sorted_unionNames (dicts : List (Option Dict)) :
    (unionNames dicts).Pairwise fun m n => m.text < n.text :=
  List.pairwise_map.2 (Dict.sorted _)

theorem nodup_unionNames (dicts : List (Option Dict)) : (unionNames dicts).Nodup :=
  Dict.nodup_names _

theorem columnOrder_eq_nil_iff : columnOrder names = [] ↔ names = [] := by
  simp only [List.eq_nil_iff_forall_not_mem, mem_columnOrder_iff]

theorem columnNames_of_empty (h : ∀ name, ¬ SomeHas dicts name) :
    columnNames dicts = [emptyColumn.name] := by
  have hnil : unionNames dicts = [] := List.eq_nil_iff_forall_not_mem.2 fun name hmem =>
    h _ (mem_unionNames_iff.1 hmem)
  rw [columnNames, columnOrder_eq_nil_iff.2 hnil]
  rfl

theorem columnNames_of_some {name : String} (h : SomeHas dicts name) :
    columnNames dicts = columnOrder (unionNames dicts) := by
  have hne : columnOrder (unionNames dicts) ≠ [] := by
    obtain ⟨n, hn, -⟩ := exists_unionName h
    exact mt columnOrder_eq_nil_iff.1 (List.ne_nil_of_mem hn)
  rw [columnNames, if_neg (mt List.isEmpty_iff.1 hne)]

theorem columnNames_ne_nil (dicts : List (Option Dict)) : columnNames dicts ≠ [] := by
  unfold columnNames
  split
  · exact List.cons_ne_nil _ _
  · rename_i hne
    exact mt List.isEmpty_iff.2 hne

theorem nodup_columnNames (dicts : List (Option Dict)) : (columnNames dicts).Nodup := by
  unfold columnNames
  split
  · exact List.nodup_singleton _
  · exact nodup_columnOrder (nodup_unionNames dicts)

/-- Every tag has a column. -/
theorem exists_columnName {name : String} (h : SomeHas dicts name) :
    ∃ n ∈ columnNames dicts, n.text = name := by
  obtain ⟨n, hn, htext⟩ := exists_unionName h
  rw [columnNames_of_some h]
  exact ⟨n, mem_columnOrder_iff.2 hn, htext⟩

theorem columnsOf_columnNames (dicts : List (Option Dict)) :
    ColumnsOf dicts ((columnNames dicts).map TagName.text) := by
  by_cases hsome : ∃ name, SomeHas dicts name
  · have hnames := columnNames_of_some hsome.choose_spec
    have hdistinct := nodup_unionNames dicts
    have hmem {name : String} : name ∈ (columnNames dicts).map TagName.text ↔
        ∃ n ∈ unionNames dicts, n.text = name := by
      simp only [hnames, List.mem_map, mem_columnOrder_iff]
    refine ⟨fun _ name => ?_, fun hnone => absurd hsome (by simpa using hnone), ?_, ?_, ?_, ?_⟩
    · constructor
      · intro hname
        obtain ⟨n, hn, rfl⟩ := hmem.1 hname
        exact mem_unionNames_iff.1 hn
      · intro hhas
        exact List.mem_map.2 (exists_columnName hhas)
    · exact (nodup_columnNames dicts).map TagName.text_injective
    · intro hid
      obtain ⟨n, hn, htext⟩ := hmem.1 hid
      rw [hnames, List.head?_map, head?_columnOrder hdistinct hn htext]
      exact congrArg some htext
    · intro hmod
      obtain ⟨n, hn, htext⟩ := hmem.1 hmod
      rw [hnames, List.getLast?_map, getLast?_columnOrder hdistinct hn htext]
      exact congrArg some htext
    · rw [hnames, List.filter_map, List.pairwise_map]
      have hfilter := filter_columnOrder (unionNames dicts)
      have hsorted := (sorted_unionNames dicts).filter fun n => n.text != "id" && n.text != "mod"
      rw [← hfilter] at hsorted
      exact hsorted
  · have hnone : ∀ name, ¬ SomeHas dicts name := by simpa using hsome
    rw [columnNames_of_empty hnone]
    refine ⟨fun h => absurd h hsome, fun _ => rfl, List.nodup_singleton _, ?_, ?_,
      List.pairwise_singleton _ _⟩
    · simp [emptyColumn]
    · simp [emptyColumn]

/-! ## The grid -/

theorem ofDicts_eq (tags : Dict) (dicts : List (Option Dict)) :
    (ofDicts tags dicts).tags = tags ∧
      (ofDicts tags dicts).columns = (columnNames dicts).map (⟨·, .empty⟩) ∧
      (ofDicts tags dicts).rows = dicts.map (dictCells (columnNames dicts)) := by
  refine GridDraft.fill_eq (b := GridDraft.empty.setTags tags) _ _ rfl rfl
    (columnNames_ne_nil dicts) (nodup_columnNames dicts) ?_
  intro cells hcells
  obtain ⟨d, -, rfl⟩ := List.mem_map.1 hcells
  exact List.length_map _

/-- The row of a dictionary below columns without tags. -/
def dictRow (names : List TagName) (d : Option Dict) : Row :=
  ⟨names.map (⟨·, .empty⟩), dictCells names d⟩

/-- The row of a dictionary answers like the dictionary, if there is a column for every
tag. -/
theorem get?_dictRow {d : Option Dict} (hdistinct : names.Nodup)
    (hcolumns : ∀ name, (d.getD .empty).has name = true → ∃ n ∈ names, n.text = name)
    (name : String) : (dictRow names d).get? name = (d.getD .empty).get? name := by
  by_cases hname : ∃ n ∈ names, n.text = name
  · obtain ⟨n, hn, rfl⟩ := hname
    have hcell : d.bind (·.get? n.text) = (d.getD .empty).get? n.text := by
      cases d <;> rfl
    have hzip : (⟨n, .empty⟩, d.bind (·.get? n.text)) ∈
        (dictRow names d).columns.zip (dictRow names d).cells := by
      unfold dictRow dictCells
      rw [List.zip_map', List.mem_map]
      exact ⟨n, hn, rfl⟩
    rw [← hcell]
    refine Row.get?_of_mem_zip ?_ ?_ hzip
    · simpa [dictRow, Function.comp_def] using hdistinct
    · simp [dictRow, dictCells]
  · have hnone : (d.getD .empty).get? name = none :=
      Option.not_isSome_iff_eq_none.1 (mt (hcolumns name) hname)
    rw [hnone]
    apply Row.get?_of_unknown
    intro c hc htext
    obtain ⟨n, hn, rfl⟩ := List.mem_map.1 hc
    exact hname ⟨n, hn, htext⟩

theorem rowViews_ofDicts (tags : Dict) (dicts : List (Option Dict)) :
    (ofDicts tags dicts).rowViews = dicts.map (dictRow (columnNames dicts)) := by
  obtain ⟨-, hcolumns, hrows⟩ := ofDicts_eq tags dicts
  rw [rowViews, hcolumns, hrows, List.map_map]
  rfl

/-- The rows read as the dictionaries. -/
theorem toDicts_ofDicts (tags : Dict) (dicts : List (Option Dict)) :
    (ofDicts tags dicts).toDicts = dicts.map fun d => d.getD .empty := by
  rw [toDicts, rowViews_ofDicts, List.map_map]
  refine List.map_congr_left fun d hd => Dict.ext_get? fun name => ?_
  have hrow : (dictRow (columnNames dicts) d).InGrid := by
    refine ⟨ofDicts tags dicts, ?_⟩
    rw [rowViews_ofDicts]
    exact List.mem_map_of_mem hd
  rw [Function.comp_apply, hrow.get?_toDict]
  refine get?_dictRow (nodup_columnNames dicts) (fun name hhas => ?_) name
  cases d with
  | none => cases hhas
  | some d => exact exists_columnName ⟨d, hd, hhas⟩

/-- Nothing of dictionaries is lost in their grid, and no row of a grid is lost in its
dictionaries. -/
theorem dicts_survive :
    (∀ tags dicts, (ofDicts tags dicts).tags = tags ∧
      (ofDicts tags dicts).rows.length = dicts.length ∧
      ColumnsOf dicts ((ofDicts tags dicts).columns.map fun c => c.name.text) ∧
      (ofDicts tags dicts).toDicts = dicts.map fun d => d.getD .empty) ∧
    ∀ g : Grid, pairwise Row.same (ofDicts g.tags (g.toDicts.map some)).rowViews g.rowViews = true := by
  constructor
  · intro tags dicts
    obtain ⟨htags, hcolumns, hrows⟩ := ofDicts_eq tags dicts
    refine ⟨htags, ?_, ?_, toDicts_ofDicts tags dicts⟩
    · rw [hrows, List.length_map]
    · rw [hcolumns, List.map_map]
      exact columnsOf_columnNames dicts
  · intro g
    rw [pairwise_rows_iff, toDicts_ofDicts, List.map_map]
    have hsame : g.toDicts.map ((fun d : Option Dict => d.getD .empty) ∘ some) = g.toDicts :=
      List.map_id' _
    rw [hsame]
    exact (equivalence_forall₂ Dict.equivalence_same).refl g.toDicts

end Grid

end TagGrid
