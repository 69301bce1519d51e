import TagGrid.Proofs.Json.Grids
import TagGrid.Proofs.Zinc.GridPlaces

/-! # Tags that the encoding of grids hides

A grid shares an object with its version, and a column shares one with its name. A tag of the
same name takes the place of that member, and the way back leaves the member out: no grid that
is decoded has a tag `ver` of its own or a tag `name` of a column.
-/

namespace TagGrid

namespace Json

variable {name : String} {d d' : Dict} {draft draft' : GridDraft} {g : Grid}

/-! ## What is never decoded -/

/-- What a step keeps, a run keeps. -/
theorem foldlM_keeps {α β ε : Type} {step : β → α → Except ε β} {p : β → Prop}
    (hstep : ∀ b a b', p b → step b a = .ok b' → p b') {xs : List α} {b b' : β} (hb : p b)
    (h : xs.foldlM step b = .ok b') : p b' := by
  induction xs generalizing b with
  | nil =>
    cases h
    exact hb
  | cons x xs ih =>
    rw [List.foldlM_cons] at h
    cases hx : step b x with
    | error e =>
      rw [hx] at h
      cases h
    | ok b₁ =>
      rw [hx] at h
      exact ih (hstep b x b₁ hb hx) h

theorem checked_eq_ok {α : Type} {r : Except Violation α} {a : α} (h : checked r = .ok a) :
    r = .ok a := by
  cases r with
  | error v => cases h
  | ok a' =>
    cases h
    rfl

/-- No tag has the name. -/
def Lacks (name : String) (d : Dict) : Prop := ∀ e ∈ d.entries, e.1.text ≠ name

theorem Lacks.has_eq_false (h : Lacks name d) : d.has name = false := by
  rw [Bool.eq_false_iff]
  intro hhas
  obtain ⟨e, he, hname⟩ := List.mem_map.1 (Dict.has_iff_mem.1 hhas)
  exact h e he hname

theorem lacks_empty : Lacks name .empty := List.forall_mem_nil _

theorem Lacks.set {n : TagName} (h : Lacks name d) (hne : n.text ≠ name) (v : Value) :
    Lacks name (d.set n v) := by
  intro e he
  rcases Dict.mem_insertEntry he with rfl | he
  · exact hne
  · exact h e he

theorem text_of_ofText? {text : String} {n : TagName} (h : TagName.ofText? text = .ok n) :
    n.text = text := by
  unfold TagName.ofText? at h
  split at h
  · cases h
    rfl
  · cases h

/-- The member of the name is left out, so no tag of the name is decoded. -/
theorem lacks_decodeTags {members : List (String × Json)}
    (h : decodeTags (some name) members = .ok d) : Lacks name d := by
  refine foldlM_keeps (fun before m after hbefore hstep => ?_) lacks_empty h
  split at hstep
  · cases hstep
    exact hbefore
  · rename_i hne
    split at hstep
    · cases hstep
    · rename_i value _
      have hadd := checked_eq_ok hstep
      cases value with
      | none =>
        cases hadd
        exact hbefore
      | some v =>
        obtain ⟨n, hn, hset⟩ := bind_eq_ok hadd
        cases hset
        refine hbefore.set ?_ v
        rw [text_of_ofText? hn]
        intro heq
        exact hne (congrArg some heq.symm)

theorem lacks_decodeGridTags {members : List (String × Json)}
    (h : decodeGridTags members = .ok d) : Lacks "ver" d := by
  unfold decodeGridTags at h
  split at h
  · split at h
    · exact lacks_decodeTags h
    · cases h
  · cases h
  · cases h

theorem decodeColumn_keeps {tree : Json} (h : decodeColumn draft tree = .ok draft')
    (hcolumns : ∀ c ∈ draft.columns, Lacks "name" c.tags) :
    draft'.tags = draft.tags ∧ ∀ c ∈ draft'.columns, Lacks "name" c.tags := by
  unfold decodeColumn at h
  split at h
  · split at h
    · rename_i column _
      obtain ⟨tags, htags, h⟩ := bind_eq_ok h
      obtain ⟨added, hadd, h⟩ := bind_eq_ok h
      obtain ⟨c₀, hempty, hadded, hkept⟩ := GridDraft.of_addColumn? (checked_eq_ok hadd)
      cases h
      refine ⟨hkept, fun c hc => ?_⟩
      rcases GridDraft.mem_setColumnTags hc with hc | hnew
      · rw [hadded] at hc
        rcases List.mem_append.1 hc with hc | hc
        · exact hcolumns c hc
        · cases List.mem_singleton.1 hc
          rw [hempty]
          exact lacks_empty
      · rw [hnew]
        exact lacks_decodeTags htags
    · cases h
  · cases h

theorem decodeRow_keeps {tree : Json} (h : decodeRow draft tree = .ok draft') :
    draft'.tags = draft.tags ∧ draft'.columns = draft.columns := by
  unfold decodeRow at h
  split at h
  · simp only at h
    split at h
    · cases h
    · obtain ⟨cells, -, h⟩ := bind_eq_ok h
      obtain ⟨htags, hcolumns, -⟩ := GridDraft.of_addRow? (checked_eq_ok h)
      exact ⟨htags, hcolumns⟩
  · cases h

theorem decodeColumns_keeps {trees : List Json} (h : trees.foldlM decodeColumn draft = .ok draft')
    (hcolumns : ∀ c ∈ draft.columns, Lacks "name" c.tags) :
    draft'.tags = draft.tags ∧ ∀ c ∈ draft'.columns, Lacks "name" c.tags := by
  refine foldlM_keeps (p := fun b => b.tags = draft.tags ∧ ∀ c ∈ b.columns, Lacks "name" c.tags)
    (fun b tree b' hb hstep => ?_) ⟨rfl, hcolumns⟩ h
  obtain ⟨htags, hnames⟩ := decodeColumn_keeps hstep hb.2
  exact ⟨htags.trans hb.1, hnames⟩

theorem decodeRows_keeps {trees : List Json} (h : trees.foldlM decodeRow draft = .ok draft') :
    draft'.tags = draft.tags ∧ draft'.columns = draft.columns := by
  refine foldlM_keeps (p := fun b => b.tags = draft.tags ∧ b.columns = draft.columns)
    (fun b tree b' hb hstep => ?_) ⟨rfl, rfl⟩ h
  obtain ⟨htags, hcolumns⟩ := decodeRow_keeps hstep
  exact ⟨htags.trans hb.1, hcolumns.trans hb.2⟩

/-- No decoded grid has a tag `ver`, and none of its columns has a tag `name`. -/
theorem lacks_decodeGrid {tree : Json} (h : decodeGrid tree = .ok g) :
    Lacks "ver" g.tags ∧ ∀ c ∈ g.columns, Lacks "name" c.tags := by
  unfold decodeGrid at h
  split at h
  · obtain ⟨metaTree, -, h⟩ := bind_eq_ok h
    simp only at h
    split at h
    · obtain ⟨tags, htags, h⟩ := bind_eq_ok h
      obtain ⟨columnsTree, -, h⟩ := bind_eq_ok h
      split at h
      · obtain ⟨columns, -, h⟩ := bind_eq_ok h
        obtain ⟨draft₁, hcolumns, h⟩ := bind_eq_ok h
        obtain ⟨rowsTree, -, h⟩ := bind_eq_ok h
        split at h
        · obtain ⟨rows, -, h⟩ := bind_eq_ok h
          obtain ⟨draft₂, hrows, h⟩ := bind_eq_ok h
          obtain ⟨htags₁, hnames⟩ := decodeColumns_keeps hcolumns (List.forall_mem_nil _)
          obtain ⟨htags₂, hcolumns₂⟩ := decodeRows_keeps hrows
          obtain ⟨htags₃, hcolumns₃, -⟩ := GridDraft.of_build? (checked_eq_ok h)
          constructor
          · rw [htags₃, htags₂, htags₁]
            exact lacks_decodeGridTags htags
          · rw [hcolumns₃, hcolumns₂]
            exact hnames
        · cases h
      · cases h
    · cases h
  · cases h

/-! ## What comes back -/

theorem decodeGrid_of_toGrid? {tree : Json} (h : tree.toGrid? = .ok g) :
    decodeGrid tree = .ok g := by
  unfold toGrid? at h
  cases hdecode : decodeGrid tree with
  | error fault =>
    rw [hdecode] at h
    cases h
  | ok g' =>
    rw [hdecode] at h
    cases h
    rfl

theorem not_hidden_of_same {g' : Grid} (hdecode : decodeGrid g.toJson = .ok g')
    (hsame : g'.same g = true) :
    g.tags.has "ver" = false ∧ ∀ c ∈ g.columns, c.tags.has "name" = false := by
  obtain ⟨hver, hname⟩ := lacks_decodeGrid hdecode
  simp only [Grid.same, Bool.and_eq_true] at hsame
  obtain ⟨⟨htags, hcolumns⟩, -⟩ := hsame
  constructor
  · rw [← Dict.has_of_same htags]
    exact hver.has_eq_false
  · intro c hc
    obtain ⟨c', hc', hsame⟩ := Grid.exists_of_pairwise hcolumns hc
    have htags := (Bool.and_eq_true_iff.1 hsame).2
    rw [← Dict.has_of_same htags]
    exact (hname c' hc').has_eq_false

theorem sample_lacks_name : ∀ c ∈ Grid.sample.columns, c.tags.has "name" = false := by
  intro c hc
  rcases List.mem_cons.1 hc with rfl | hc
  · decide
  · cases List.mem_singleton.1 hc
    decide

/-- A grid without late years comes back from JSON as an equal grid exactly if it has no tag
`ver` and none of its columns has a tag `name`. -/
theorem json_gives_back_iff (g : Grid) (hyears : g.everyValue Value.yearsFit = true) :
    (∃ g', g.toJson.toGrid? = .ok g' ∧ g'.same g = true) ↔
      g.tags.has "ver" = false ∧ ∀ c ∈ g.columns, c.tags.has "name" = false := by
  constructor
  · rintro ⟨g', hgrid, hsame⟩
    exact not_hidden_of_same (decodeGrid_of_toGrid? hgrid) hsame
  · rintro ⟨hver, hname⟩
    refine ⟨g, ?_, g.same_refl⟩
    unfold toGrid?
    rw [decodeGrid_toJson hyears hver hname]
    rfl

theorem sample_json_gives_back :
    Grid.sample.everyValue Value.yearsFit = true ∧
      ∃ g', Grid.sample.toJson.toGrid? = .ok g' ∧ g'.same .sample = true := by
  exact ⟨by decide, (json_gives_back_iff .sample (by decide)).2 ⟨by decide, sample_lacks_name⟩⟩

/-- Two columns whose tags are named like the members that hold the names of columns. -/
def crossed : Grid where
  tags := .empty
  columns :=
    [⟨⟨"a", by decide⟩, Dict.empty.set ⟨"name", by decide⟩ (.str "b")⟩,
     ⟨⟨"b", by decide⟩, Dict.empty.set ⟨"name", by decide⟩ (.str "a")⟩]
  rows := [[some (.ofInt 1), some (.ofInt 2)]]
  nonempty := by simp
  distinct := by decide
  rectangular := by simp

/-- Each column comes back with the name of the other one. -/
theorem crossed_json_changes :
    crossed.everyValue Value.yearsFit = true ∧
      (crossed.toJson.toGrid?.toOption.map fun g => g.columns.map fun c => c.name.text) =
        some ["b", "a"] ∧
      ¬ ∃ g', crossed.toJson.toGrid? = .ok g' ∧ g'.same crossed = true := by
  refine ⟨by decide, by decide +kernel, ?_⟩
  rintro ⟨g', hgrid, hsame⟩
  obtain ⟨-, hname⟩ := not_hidden_of_same (decodeGrid_of_toGrid? hgrid) hsame
  exact absurd (hname _ List.mem_cons_self) (by decide)

end Json

end TagGrid
