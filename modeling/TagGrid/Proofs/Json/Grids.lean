import TagGrid.Proofs.Json.Tags
import TagGrid.Proofs.Zinc.Grids

/-! # Reading grids back from JSON trees

The cells of a row are members by the names of their columns, blank ones left out. The
columns have distinct names, so every cell is found again and a blank one is not.
-/

namespace TagGrid

namespace Row

variable {columns : List Column} {cells : List (Option Value)} {c : Column} {cell : Option Value}

theorem tags_names_sublist (columns : List Column) (cells : List (Option Value)) :
    ((⟨columns, cells⟩ : Row).tags.map Prod.fst).Sublist (columns.map Column.name) := by
  induction columns generalizing cells with
  | nil => exact List.Sublist.refl _
  | cons c columns ih =>
    cases cells with
    | nil => exact List.nil_sublist _
    | cons cell cells =>
      have hrest := ih cells
      cases cell with
      | none => exact hrest.cons c.name
      | some v => exact hrest.cons_cons c.name

/-- A blank cell leaves its column without a tag. -/
theorem name_not_mem_of_blank (hdistinct : (columns.map Column.name).Nodup)
    (hlength : cells.length = columns.length) (hblank : (c, none) ∈ columns.zip cells) :
    c.name ∉ (⟨columns, cells⟩ : Row).tags.map Prod.fst := by
  intro hmem
  obtain ⟨e, he, hname⟩ := List.mem_map.1 hmem
  obtain ⟨⟨d, cell⟩, hd, hcell⟩ := List.mem_filterMap.1 he
  have hnames : ((columns.zip cells).map fun p => p.1.name).Nodup := by
    have hcolumns : (columns.zip cells).map Prod.fst = columns :=
      List.map_fst_zip (Nat.le_of_eq hlength.symm)
    rw [← hcolumns, List.map_map] at hdistinct
    exact hdistinct
  cases cell with
  | none => cases hcell
  | some v =>
    cases hcell
    cases List.inj_on_of_nodup_map hnames hd hblank hname

end Row

namespace Json

variable {b : GridDraft}

/-! ## Columns -/

theorem decodeColumn_toJson {c : Column} (hyears : c.tags.everyValue Value.yearsFit = true)
    (hname : c.tags.has "name" = false) (hrows : b.rows = [])
    (hnew : c.name ∉ b.columns.map Column.name) :
    ∃ b', decodeColumn b c.toJson = .ok b' ∧ b'.tags = b.tags ∧
      b'.columns = b.columns ++ [c] ∧ b'.rows = [] := by
  obtain ⟨b', hadd, htags, hcolumns, hrows'⟩ := GridDraft.exists_addColumn? hrows hnew
  refine ⟨b'.setColumnTags c.name.text c.tags, ?_, htags, hcolumns, hrows'⟩
  obtain ⟨hmembers, hdecode⟩ := decodeTags_behind (.str c.name.text) hyears hname
  have hmember : member? (("name", .str c.name.text) :: ofTags c.tags.entries) "name" =
      some (.str c.name.text) := rfl
  unfold Column.toJson decodeColumn
  rw [hmembers]
  simp only [hmember, hdecode, hadd]
  rfl

theorem foldlM_decodeColumn {columns : List Column}
    (hyears : ∀ c ∈ columns, c.tags.everyValue Value.yearsFit = true)
    (hname : ∀ c ∈ columns, c.tags.has "name" = false) (hrows : b.rows = [])
    (hdistinct : ((b.columns ++ columns).map Column.name).Nodup) :
    ∃ b', (columns.map Column.toJson).foldlM decodeColumn b = .ok b' ∧ b'.tags = b.tags ∧
      b'.columns = b.columns ++ columns ∧ b'.rows = [] := by
  induction columns generalizing b with
  | nil => exact ⟨b, rfl, rfl, (List.append_nil _).symm, hrows⟩
  | cons c columns ih =>
    have hnew : c.name ∉ b.columns.map Column.name := by
      rw [List.map_append, List.map_cons] at hdistinct
      intro hmem
      exact List.disjoint_of_nodup_append hdistinct hmem List.mem_cons_self
    obtain ⟨b₁, hcolumn, htags₁, hcolumns₁, hrows₁⟩ :=
      decodeColumn_toJson (hyears c List.mem_cons_self) (hname c List.mem_cons_self) hrows hnew
    have hassoc : b₁.columns ++ columns = b.columns ++ c :: columns := by
      rw [hcolumns₁, List.append_assoc]
      rfl
    obtain ⟨b', hrest, htags', hcolumns', hrows'⟩ :=
      ih (fun d hd => hyears d (List.mem_cons_of_mem _ hd))
        (fun d hd => hname d (List.mem_cons_of_mem _ hd)) hrows₁ (hassoc ▸ hdistinct)
    refine ⟨b', ?_, htags'.trans htags₁, hcolumns'.trans hassoc, hrows'⟩
    rw [List.map_cons, List.foldlM_cons, hcolumn]
    exact hrest

/-! ## Rows -/

/-- A computation for every item that yields the item opposite it yields all of them. -/
theorem mapM_eq_ok {α β : Type} {f : α → Except Fault β} {xs : List α} {ys : List β}
    (hlength : ys.length = xs.length) (h : ∀ p ∈ xs.zip ys, f p.1 = .ok p.2) :
    xs.mapM f = .ok ys := by
  induction xs generalizing ys with
  | nil =>
    cases List.length_eq_zero_iff.1 hlength
    rfl
  | cons x xs ih =>
    cases ys with
    | nil => cases hlength
    | cons y ys =>
      have hx := h (x, y) List.mem_cons_self
      have hxs := ih (Nat.succ.inj hlength) fun p hp => h p (List.mem_cons_of_mem _ hp)
      rw [List.mapM_cons, hx, hxs]
      rfl

theorem decodeCell_zip {columns : List Column} {cells : List (Option Value)}
    (hdistinct : (columns.map Column.name).Nodup) (hlength : cells.length = columns.length)
    (hyears : ∀ v, some v ∈ cells → v.yearsFit = true) :
    ∀ p ∈ columns.zip cells,
      decodeCell (ofTags (⟨columns, cells⟩ : Row).tags) p.1.name.text = .ok p.2 := by
  rintro ⟨c, cell⟩ hp
  unfold decodeCell
  cases cell with
  | none =>
    have habsent : c.name.text ∉ (ofTags (⟨columns, cells⟩ : Row).tags).map Prod.fst := by
      rw [ofTags_names, List.mem_map_of_injective TagName.text_injective]
      exact Row.name_not_mem_of_blank hdistinct hlength hp
    rw [member?_absent habsent]
  | some v =>
    have hnodup := nodup_ofTags (hdistinct.sublist (Row.tags_names_sublist columns cells))
    have htag : (c.name, v) ∈ (⟨columns, cells⟩ : Row).tags :=
      List.mem_filterMap.2 ⟨(c, some v), hp, rfl⟩
    have hmember : (c.name.text, v.toJson) ∈ ofTags (⟨columns, cells⟩ : Row).tags :=
      List.mem_map.2 ⟨(c.name, v), htag, rfl⟩
    rw [member?_of_mem hnodup hmember]
    exact decodeValue_toJson v (hyears v (List.of_mem_zip hp).2)

theorem decodeRow_toJson {cells : List (Option Value)}
    (hlength : cells.length = b.columns.length)
    (hyears : ∀ v, some v ∈ cells → v.yearsFit = true) :
    ∃ b', decodeRow b (Row.toJson ⟨b.columns, cells⟩) = .ok b' ∧ b'.tags = b.tags ∧
      b'.columns = b.columns ∧ b'.rows = b.rows ++ [cells] := by
  obtain ⟨b', hadd, hrest⟩ := GridDraft.exists_addRow? hlength
  refine ⟨b', ?_, hrest⟩
  have hsublist := Row.tags_names_sublist b.columns cells
  have hmembers : setMembers [] (ofTags (⟨b.columns, cells⟩ : Row).tags) =
      ofTags (⟨b.columns, cells⟩ : Row).tags :=
    setMembers_distinct (nodup_ofTags (b.distinct.sublist hsublist))
  have hknown : (ofTags (⟨b.columns, cells⟩ : Row).tags).find?
      (fun m => !(b.columns.map fun c => c.name.text).contains m.1) = none := by
    rw [List.find?_eq_none]
    intro m hm
    have hname : m.1 ∈ (b.columns.map Column.name).map TagName.text := by
      apply (hsublist.map TagName.text).subset
      rw [← ofTags_names]
      exact List.mem_map_of_mem hm
    rw [List.map_map] at hname
    simpa using hname
  have hcells : (b.columns.map fun c => c.name.text).mapM
      (decodeCell (ofTags (⟨b.columns, cells⟩ : Row).tags)) = .ok cells := by
    rw [List.mapM_map]
    exact mapM_eq_ok hlength (decodeCell_zip b.distinct hlength hyears)
  unfold Row.toJson decodeRow
  rw [hmembers]
  simp only [hknown, hcells]
  exact congrArg checked hadd

theorem foldlM_decodeRow {rows : List (List (Option Value))}
    (hlength : ∀ cells ∈ rows, cells.length = b.columns.length)
    (hyears : ∀ cells ∈ rows, ∀ v, some v ∈ cells → v.yearsFit = true) :
    ∃ b', (rows.map fun cells => Row.toJson ⟨b.columns, cells⟩).foldlM decodeRow b = .ok b' ∧
      b'.tags = b.tags ∧ b'.columns = b.columns ∧ b'.rows = b.rows ++ rows := by
  induction rows generalizing b with
  | nil => exact ⟨b, rfl, rfl, rfl, (List.append_nil _).symm⟩
  | cons cells rows ih =>
    obtain ⟨b₁, hrow, htags₁, hcolumns₁, hrows₁⟩ :=
      decodeRow_toJson (hlength cells List.mem_cons_self) (hyears cells List.mem_cons_self)
    have hlength₁ : ∀ cells' ∈ rows, cells'.length = b₁.columns.length := by
      intro cells' hcells'
      rw [hcolumns₁]
      exact hlength cells' (List.mem_cons_of_mem _ hcells')
    obtain ⟨b', hrest, htags', hcolumns', hrows'⟩ :=
      ih hlength₁ fun cells' hcells' => hyears cells' (List.mem_cons_of_mem _ hcells')
    refine ⟨b', ?_, htags'.trans htags₁, hcolumns'.trans hcolumns₁, ?_⟩
    · rw [List.map_cons, List.foldlM_cons, hrow]
      rw [hcolumns₁] at hrest
      exact hrest
    · rw [hrows', hrows₁, List.append_assoc]
      rfl

/-! ## Grids -/

theorem decodeGridTags_behind {d : Dict} (hyears : d.everyValue Value.yearsFit = true)
    (hversion : d.has "ver" = false) :
    decodeGridTags (setMembers [("ver", .str version)] (ofTags d.entries)) = .ok d := by
  obtain ⟨hmembers, hdecode⟩ := decodeTags_behind (.str version) hyears hversion
  have hmember : member? (("ver", .str version) :: ofTags d.entries) "ver" =
      some (.str version) := rfl
  unfold decodeGridTags
  rw [hmembers, hmember]
  exact (if_pos rfl).trans hdecode

theorem requireMember_meta (tags columns rows : Json) :
    requireMember [("meta", tags), ("cols", columns), ("rows", rows)] "meta" = .ok tags := rfl

theorem requireMember_cols (tags columns rows : Json) :
    requireMember [("meta", tags), ("cols", columns), ("rows", rows)] "cols" = .ok columns := rfl

theorem requireMember_rows (tags columns rows : Json) :
    requireMember [("meta", tags), ("cols", columns), ("rows", rows)] "rows" = .ok rows := rfl

theorem decodeGrid_toJson {g : Grid} (hyears : g.everyValue Value.yearsFit = true)
    (hversion : g.tags.has "ver" = false)
    (hname : ∀ c ∈ g.columns, c.tags.has "name" = false) : decodeGrid g.toJson = .ok g := by
  simp only [Grid.everyValue, Bool.and_eq_true, List.all_eq_true] at hyears
  obtain ⟨⟨htags, hcolumns⟩, hcells⟩ := hyears
  have hdistinct : (((GridDraft.empty.setTags g.tags).columns ++ g.columns).map
      Column.name).Nodup := g.distinct
  obtain ⟨b₁, hfold₁, htags₁, hcolumns₁, hrows₁⟩ :=
    foldlM_decodeColumn hcolumns hname rfl hdistinct
  have hcolumns₁ : b₁.columns = g.columns := hcolumns₁
  have hlength : ∀ cells ∈ g.rows, cells.length = b₁.columns.length := by
    rw [hcolumns₁]
    exact g.rectangular
  obtain ⟨b₂, hfold₂, htags₂, hcolumns₂, hrows₂⟩ := foldlM_decodeRow hlength
    fun cells hmem v hv => hcells cells hmem (some v) hv
  have hbuild : b₂.build? = .ok g := by
    apply GridDraft.build?_eq_ok (htags₂.trans htags₁) (hcolumns₂.trans hcolumns₁)
    rw [hrows₂, hrows₁, List.nil_append]
  have hviews : g.rowViews.map Row.toJson =
      g.rows.map fun cells => Row.toJson ⟨b₁.columns, cells⟩ := by
    rw [hcolumns₁, Grid.rowViews, List.map_map]
    rfl
  unfold decodeGrid Grid.toJson
  simp only [requireMember_meta, requireMember_cols, requireMember_rows]
  simp only [bind, Except.bind, decodeGridTags_behind htags hversion, hfold₁, hviews, hfold₂, hbuild]
  rfl

/-- A value without a late year comes back from JSON as it is. So does a grid of such values
if none of its tags is hidden behind the version, or behind the name of a column, and what
comes back has the same Zinc text. -/
theorem json_reads_back :
    (∀ v : Value, v.yearsFit = true → v.toJson.toValue? = .ok (some v)) ∧
    ∀ g : Grid, g.everyValue Value.yearsFit = true → g.tags.has "ver" = false →
      (∀ c ∈ g.columns, c.tags.has "name" = false) →
      ∃ g' text, g.toJson.toGrid? = .ok g' ∧ Zinc.ofGrid? .v3 g' = .ok text ∧
        Zinc.ofGrid? .v3 g = .ok text ∧ g' = g := by
  constructor
  · intro v hyears
    unfold toValue?
    rw [decodeValue_toJson v hyears]
    rfl
  · intro g hyears hversion hname
    have hgrid : g.toJson.toGrid? = .ok g := by
      unfold toGrid?
      rw [decodeGrid_toJson hyears hversion hname]
      rfl
    have htext := Zinc.ofGrid?_v3 g
    exact ⟨g, _, hgrid, htext, htext, rfl⟩

theorem sample_json_reads_back :
    Value.sample.yearsFit = true ∧ Value.sample.toJson.toValue? = .ok (some .sample) ∧
      Grid.sample.everyValue Value.yearsFit = true ∧ Grid.sample.tags.has "ver" = false ∧
      (Grid.sample.columns.all fun c => !c.tags.has "name") = true ∧
      ∃ g' text, Grid.sample.toJson.toGrid? = .ok g' ∧ Zinc.ofGrid? .v3 g' = .ok text ∧
        Zinc.ofGrid? .v3 .sample = .ok text ∧ g' = .sample := by
  have hname : ∀ c ∈ Grid.sample.columns, c.tags.has "name" = false := by
    intro c hc
    rcases List.mem_cons.1 hc with rfl | hc
    · decide
    · cases List.mem_singleton.1 hc
      decide
  exact ⟨by decide, json_reads_back.1 .sample (by decide), by decide, by decide, by decide,
    json_reads_back.2 .sample (by decide) (by decide) hname⟩

end Json

end TagGrid
