import Mathlib.Data.List.Forall2
import TagGrid.Grid.Draft
import TagGrid.Proofs.Dict.Draft
import TagGrid.Proofs.Grid.Columns
import TagGrid.Proofs.Grid.Draft

/-! # Runs of calls of a grid draft

A draft holds what the accepted calls gave it, in their order, and the grid that is built of
it holds the same. Refused calls leave no trace.
-/

namespace TagGrid

/-! ## Finishing after each change

The tags of a grid are finished after each call, and rows and dictionaries are put together
from finished ones. One draft that is finished in the end makes the same of the same changes.
-/

/-- Going on from a dictionary and finishing at once gives it back. -/
theorem DictDraft.freeze_ofDict (d : Dict) : (ofDict d).freeze = d :=
  Dict.ext_get? fun name => (ofDict d).get?_freeze name

theorem GridDraft.tags_run {b : GridDraft} {tags : DictDraft} (h : b.tags = tags.freeze)
    (calls : List DictDraft.Call) :
    (b.run (calls.map Call.tags)).tags = (tags.run calls).freeze := by
  induction calls generalizing b tags with
  | nil => exact h
  | cons call calls ih =>
    refine ih (Dict.ext_get? fun name => ?_)
    have hbefore : (DictDraft.ofDict b.tags).get? name = tags.get? name := by
      rw [h]
      exact tags.get?_freeze name
    show ((DictDraft.ofDict b.tags).perform call).2.freeze.get? name = _
    rw [DictDraft.get?_freeze, DictDraft.get?_freeze, DictDraft.get?_perform,
      DictDraft.get?_perform, hbefore]

theorem Row.toDict_eq_run (r : Row) :
    r.toDict = (DictDraft.empty.run (r.tags.map fun e => .add e.1.text e.2)).freeze := by
  rw [DictDraft.run_add, DictDraft.freeze_foldl_set, DictDraft.freeze_empty]
  rfl

/-- What is added to finished dictionaries one after another is what drafts would make of it:
tags are refused alike and leave the same, so do whole dictionaries and the tags of a row, and
the tags of a grid are those of one draft, although they are finished after each call. -/
theorem finished_refines_drafts :
    (∀ (b : DictDraft) (tags : List (String × Option Value)),
      (tags.foldlM (fun (b : DictDraft) t => b.addOption? t.1 t.2) b).map DictDraft.freeze =
        tags.foldlM (fun (d : Dict) t => d.addOption? t.1 t.2) b.freeze) ∧
    (∀ (b : DictDraft) (ds : List Dict),
      (ds.foldl DictDraft.addAll b).freeze = ds.foldl Dict.addAll b.freeze) ∧
    (∀ r : Row,
      (DictDraft.empty.run (r.tags.map fun e => .add e.1.text e.2)).freeze = r.toDict) ∧
    ∀ (b : GridDraft) (tags : DictDraft), tags.freeze = b.tags → ∀ calls,
      (tags.run calls).freeze = (b.run (calls.map .tags)).tags :=
  ⟨DictDraft.freeze_foldlM_addOption?, DictDraft.freeze_foldl_addAll,
    fun r => r.toDict_eq_run.symm, fun _ _ h calls => (GridDraft.tags_run h.symm calls).symm⟩

namespace GridDraft

variable {b b' : GridDraft}

/-! ## One call -/

namespace Call

/-- The calls that fail: those that are to declare a column after a row, under a name that is
not a tag name or under the name of another column, those that are to add a row of another
length, and those that fail on the draft of the grid's own tags. -/
def Refused (b : GridDraft) : Call → Prop
  | tags call => call.Refused
  | column name _ =>
    b.rows ≠ [] ∨ ¬ isTagName name.toList = true ∨ name ∈ b.columns.map fun c => c.name.text
  | row cells => cells.length ≠ b.columns.length
  | setTags _ | dictRow _ => False

end Call

theorem exists_addColumn?_error_iff (b : GridDraft) (name : String) :
    (∃ v, b.addColumn? name = .error v) ↔
      b.rows ≠ [] ∨ ¬ isTagName name.toList = true ∨ name ∈ b.columns.map fun c => c.name.text := by
  unfold addColumn?
  by_cases hrows : b.rows = []
  · by_cases hvalid : isTagName name.toList = true
    · have hname : (⟨name, hvalid⟩ : TagName) ∈ b.columns.map Column.name ↔
          name ∈ b.columns.map fun c => c.name.text := by
        have htexts : (b.columns.map fun c => c.name.text) =
            (b.columns.map Column.name).map TagName.text := by
          rw [List.map_map]
          rfl
        rw [htexts, List.mem_map_of_injective TagName.text_injective (a := ⟨name, hvalid⟩)]
      rw [dif_pos hrows, dif_pos hvalid]
      simp only [hname]
      split <;> simp [*]
    · simp [hrows, hvalid]
  · simp [hrows]

theorem declare?_eq (b : GridDraft) (name : String) (tags : DictDraft) :
    b.declare? name tags = (b.addColumn? name).map fun b => b.setColumnTags name tags.freeze := by
  unfold declare?
  cases b.addColumn? name <;> rfl

theorem exists_settle_error_iff {α : Type} {before : α} {change : Except Violation α} :
    (∃ v, (settle before change).1 = .error v) ↔ ∃ v, change = .error v := by
  cases change with
  | ok after => exact iff_of_false (fun ⟨_, h⟩ => nomatch h) (fun ⟨_, h⟩ => nomatch h)
  | error v => exact iff_of_true ⟨v, rfl⟩ ⟨v, rfl⟩

theorem exists_addRow?_error_iff (b : GridDraft) (cells : List (Option Value)) :
    (∃ v, b.addRow? cells = .error v) ↔ cells.length ≠ b.columns.length := by
  unfold addRow?
  split <;> simp [*]

/-- A call fails exactly if it is one of the refused ones. -/
theorem exists_perform_error_iff (b : GridDraft) (call : Call) :
    (∃ v, (b.perform call).1 = .error v) ↔ call.Refused b := by
  cases call with
  | tags call => exact (DictDraft.ofDict b.tags).exists_perform_error_iff call
  | setTags tags => simp [perform, Call.Refused]
  | column name calls =>
    have hdeclare : (∃ v, b.declare? name (DictDraft.empty.run calls) = .error v) ↔
        ∃ v, b.addColumn? name = .error v := by
      rw [declare?_eq]
      cases b.addColumn? name <;> simp [Except.map]
    exact exists_settle_error_iff.trans (hdeclare.trans (b.exists_addColumn?_error_iff name))
  | row cells => exact exists_settle_error_iff.trans (b.exists_addRow?_error_iff cells)
  | dictRow tags =>
    refine exists_settle_error_iff.trans ((b.exists_addRow?_error_iff _).trans ?_)
    simp [Call.Refused]

/-- A call that fails leaves the draft as it was. -/
theorem perform_error {call : Call} {v : Violation} (h : (b.perform call).1 = .error v) :
    (b.perform call).2 = b := by
  cases call with
  | tags call =>
    have htags : ((DictDraft.ofDict b.tags).perform call).2 = DictDraft.ofDict b.tags :=
      DictDraft.perform_error h
    show b.setTags ((DictDraft.ofDict b.tags).perform call).2.freeze = b
    rw [htags, DictDraft.freeze_ofDict]
    rfl
  | setTags tags => cases h
  | column | row | dictRow => exact DictDraft.settle_error h

/-- A call on the draft of a column's tags that fails leaves the column as it was. -/
theorem perform_column_error {calls : List DictDraft.Call} {call : DictDraft.Call} {v : Violation}
    (h : ((DictDraft.empty.run calls).perform call).1 = .error v) (name : String) :
    b.perform (.column name (calls ++ [call])) = b.perform (.column name calls) := by
  have hrun : DictDraft.empty.run (calls ++ [call]) = DictDraft.empty.run calls := by
    have hcall := DictDraft.perform_error h
    unfold DictDraft.run at hcall ⊢
    rw [List.foldl_concat]
    exact hcall
  show settle b (b.declare? name (DictDraft.empty.run (calls ++ [call]))) = _
  rw [hrun]
  rfl

theorem ok_of_settle {α : Type} {before : α} {change : Except Violation α}
    {answer : Option Value} (h : (settle before change).1 = .ok answer) :
    change = .ok (settle before change).2 := by
  cases change with
  | ok after => rfl
  | error v => cases h

/-! ## What the calls give a draft -/

namespace Call

/-- What a call does to the value of the grid's own tag of a name: it writes one, removes it,
or leaves it alone. -/
def tagEffect (call : Call) (name : String) : Option (Option Value) :=
  match call with
  | tags call => call.effect name
  | setTags d => some (d.get? name)
  | column .. | row _ | dictRow _ => none

/-- The column that a call declares, with the calls of the draft of its tags. -/
def declared? : Call → Option (String × List DictDraft.Call)
  | column name calls => some (name, calls)
  | tags _ | setTags _ | row _ | dictRow _ => none

/-- The row that a call adds below columns of the names. -/
def cells? (names : List String) : Call → Option (List (Option Value))
  | row cells => some cells
  | dictRow d => some (names.map d.get?)
  | tags _ | setTags _ | column .. => none

end Call

/-- What calls last wrote under a name among the grid's own tags, if they did not remove it
since. -/
def lastTag (calls : List Call) (name : String) : Option Value :=
  (calls.reverse.findSome? fun call => call.tagEffect name).join

/-- A column has the name that was declared and the tags that were last written. -/
def DeclaredBy (c : Column) (declaration : String × List DictDraft.Call) : Prop :=
  c.name.text = declaration.1 ∧
    ∀ name, c.tags.get? name = DictDraft.lastWritten declaration.2 name

/-- A draft holds what calls gave it, in their order. -/
structure Records (b : GridDraft) (calls : List Call) : Prop where
  tags : ∀ name, b.tags.get? name = lastTag calls name
  columns : List.Forall₂ DeclaredBy b.columns (calls.filterMap Call.declared?)
  rows : b.rows = calls.filterMap (Call.cells? (b.columns.map fun c => c.name.text))

/-- The calls that do not fail when they are made one after another. -/
def accepted (b : GridDraft) : List Call → List Call
  | [] => []
  | call :: calls =>
    match b.perform call with
    | (.ok _, b) => call :: accepted b calls
    | (.error _, b) => accepted b calls

theorem lastTag_concat (calls : List Call) (call : Call) (name : String) :
    lastTag (calls ++ [call]) name = (call.tagEffect name).getD (lastTag calls name) := by
  unfold lastTag
  rw [List.reverse_concat, List.findSome?_cons]
  cases call.tagEffect name <;> rfl

theorem records_empty : empty.Records [] where
  tags _ := rfl
  columns := .nil
  rows := rfl

/-! ## One call of a draft that records others -/

section Step

variable {calls : List Call}

theorem of_declare? {name : String} {tags : DictDraft} (h : b.declare? name tags = .ok b') :
    b.rows = [] ∧ ∃ c : Column, c.name.text = name ∧ c.tags = tags.freeze ∧ b'.tags = b.tags ∧
      b'.columns = b.columns ++ [c] ∧ b'.rows = [] := by
  have hrefused : ¬ ∃ v, b.addColumn? name = .error v := by
    rintro ⟨v, hv⟩
    rw [declare?_eq, hv] at h
    cases h
  rw [exists_addColumn?_error_iff] at hrefused
  simp only [not_or, not_not] at hrefused
  obtain ⟨hrows, hvalid, hnew⟩ := hrefused
  let c : Column := ⟨⟨name, hvalid⟩, tags.freeze⟩
  have hfresh : c.name ∉ b.columns.map Column.name := by
    intro hmem
    obtain ⟨d, hd, heq⟩ := List.mem_map.1 hmem
    exact hnew (List.mem_map.2 ⟨d, hd, congrArg TagName.text heq⟩)
  obtain ⟨added, hadded, htags, hcolumns, hrows'⟩ := exists_addColumn? (c := c) hrows hfresh
  have hsame : added.setColumnTags name tags.freeze = b' := by
    have hdeclare : b.declare? name tags = .ok (added.setColumnTags name tags.freeze) := by
      rw [declare?_eq, hadded]
      rfl
    exact Except.ok.inj (hdeclare.symm.trans h)
  rw [← hsame]
  exact ⟨hrows, c, rfl, rfl, htags, hcolumns, hrows'⟩

/-- Calls that are no rows add no rows, whatever the columns. -/
theorem cells?_eq_none {names others : List String} {call : Call}
    (h : call.cells? names = none) : call.cells? others = none := by
  cases call with
  | row | dictRow => cases h
  | tags | setTags | column => rfl

theorem filterMap_cells?_congr {names others : List String}
    (h : calls.filterMap (Call.cells? names) = []) :
    calls.filterMap (Call.cells? others) = [] := by
  rw [List.filterMap_eq_nil_iff] at h ⊢
  exact fun call hcall => cells?_eq_none (h call hcall)

theorem filterMap_concat {α β : Type} (f : α → Option β) (xs : List α) (x : α) :
    (xs ++ [x]).filterMap f = xs.filterMap f ++ (f x).toList := by
  rw [List.filterMap_append]
  cases hx : f x <;> simp [hx]

/-- What a call must do to a draft that records those before it. Columns are only added
while there are no rows, so the rows do not depend on when they were added. -/
theorem Records.concat (h : b.Records calls) {call : Call} {added : List Column}
    (htags : ∀ name, b'.tags.get? name = (call.tagEffect name).getD (b.tags.get? name))
    (hcolumns : b'.columns = b.columns ++ added)
    (hadded : List.Forall₂ DeclaredBy added call.declared?.toList)
    (hempty : added = [] ∨ b.rows = [])
    (hrows : b'.rows =
      b.rows ++ (call.cells? (b'.columns.map fun c => c.name.text)).toList) :
    b'.Records (calls ++ [call]) where
  tags name := by rw [lastTag_concat, htags, h.tags]
  columns := by
    rw [filterMap_concat, hcolumns]
    exact List.rel_append h.columns hadded
  rows := by
    rw [filterMap_concat, hrows]
    congr 1
    rcases hempty with rfl | hempty
    · rw [hcolumns, List.append_nil]
      exact h.rows
    · have hnone := h.rows.symm.trans hempty
      rw [hempty, filterMap_cells?_congr hnone]

theorem Records.perform (h : b.Records calls) {call : Call} {answer : Option Value}
    (hok : (b.perform call).1 = .ok answer) : (b.perform call).2.Records (calls ++ [call]) := by
  cases call with
  | tags call =>
    refine h.concat (fun name => ?_) (List.append_nil _).symm .nil (.inl rfl)
      (List.append_nil _).symm
    show ((DictDraft.ofDict b.tags).perform call).2.freeze.get? name = _
    rw [DictDraft.get?_freeze, DictDraft.get?_perform]
    rfl
  | setTags d =>
    exact h.concat (fun name => rfl) (List.append_nil _).symm .nil (.inl rfl)
      (List.append_nil _).symm
  | column name inner =>
    obtain ⟨hempty, c, hname, htags, hsame, hcolumns, hrows⟩ := of_declare? (ok_of_settle hok)
    have hdeclared : DeclaredBy c (name, inner) := by
      refine ⟨hname, fun key => ?_⟩
      rw [htags, DictDraft.get?_freeze, DictDraft.get?_run_empty]
    refine h.concat (fun key => ?_) hcolumns (.cons hdeclared .nil) (.inr hempty) ?_
    · exact congrArg (Dict.get? · key) hsame
    · rw [hempty]
      exact hrows
  | row cells =>
    obtain ⟨htags, hcolumns, hrows⟩ := of_addRow? (ok_of_settle hok)
    refine h.concat (fun key => ?_) (hcolumns.trans (List.append_nil _).symm) .nil (.inl rfl) hrows
    exact congrArg (Dict.get? · key) htags
  | dictRow d =>
    obtain ⟨htags, hcolumns, hrows⟩ := of_addRow? (ok_of_settle hok)
    refine h.concat (fun key => ?_) (hcolumns.trans (List.append_nil _).symm) .nil (.inl rfl) ?_
    · exact congrArg (Dict.get? · key) htags
    · have hcells : b.columns.map (fun c => d.get? c.name.text) =
          ((b.perform (.dictRow d)).2.columns.map fun c => c.name.text).map d.get? := by
        rw [List.map_map]
        exact congrArg (List.map _) hcolumns.symm
      exact hrows.trans (congrArg (fun cells => b.rows ++ [cells]) hcells)

theorem Records.run (h : b.Records calls) (more : List Call) :
    (b.run more).Records (calls ++ accepted b more) := by
  induction more generalizing b calls with
  | nil =>
    rw [accepted, List.append_nil]
    exact h
  | cons call more ih =>
    show ((b.perform call).2.run more).Records _
    unfold accepted
    cases hcall : b.perform call with
    | mk answer after =>
      cases answer with
      | ok answer =>
        have hafter : after.Records (calls ++ [call]) := by
          have hok : (b.perform call).1 = .ok answer := by rw [hcall]
          have hperform := h.perform hok
          rwa [hcall] at hperform
        have hrest := ih hafter
        rwa [List.append_assoc] at hrest
      | error v =>
        have herror : (b.perform call).1 = .error v := by rw [hcall]
        have hsame := perform_error herror
        rw [hcall] at hsame
        subst hsame
        exact ih h

end Step

/-! ## Runs -/

/-- The columns have tag names, each its own, and every row has a cell for each of them. -/
structure Regular (b : GridDraft) : Prop where
  names : ∀ c ∈ b.columns, isTagName c.name.text.toList = true
  distinct : (b.columns.map fun c => c.name.text).Nodup
  rectangular : ∀ cells ∈ b.rows, cells.length = b.columns.length

theorem regular (b : GridDraft) : b.Regular where
  names c _ := c.name.valid
  distinct := by
    have htexts := b.distinct.map TagName.text_injective
    rwa [List.map_map] at htexts
  rectangular := b.rectangular

theorem exists_build?_error_iff (b : GridDraft) : (∃ v, b.build? = .error v) ↔ b.columns = [] := by
  unfold build?
  split <;> simp [*]

theorem Records.columns_eq_nil_iff {calls : List Call} (h : b.Records calls) :
    b.columns = [] ↔ calls.filterMap Call.declared? = [] := by
  rw [← List.length_eq_zero_iff, h.columns.length_eq, List.length_eq_zero_iff]

/-- Whatever the calls of a new draft, it is regular and holds what the calls that did not
fail gave it. A grid is built of it exactly if one of them declared a column, and holds the
same, with columns and cells that are found alike by name and by place. -/
theorem calls_build_grid (calls : List Call) :
    (empty.run calls).Regular ∧
    (empty.run calls).Records (accepted empty calls) ∧
    (∀ call, (∃ v, ((empty.run calls).perform call).1 = .error v) ↔
      call.Refused (empty.run calls)) ∧
    (∀ call v, ((empty.run calls).perform call).1 = .error v →
      ((empty.run calls).perform call).2 = empty.run calls) ∧
    (∀ name inner call v, ((DictDraft.empty.run inner).perform call).1 = .error v →
      (empty.run calls).perform (.column name (inner ++ [call])) =
        (empty.run calls).perform (.column name inner)) ∧
    ((∃ v, (empty.run calls).build? = .error v) ↔
      (accepted empty calls).filterMap Call.declared? = []) ∧
    ∀ g, (empty.run calls).build? = .ok g →
      g.tags = (empty.run calls).tags ∧ g.columns = (empty.run calls).columns ∧
        g.rows = (empty.run calls).rows ∧ g.Indexed := by
  have hrecords : (empty.run calls).Records (accepted empty calls) := records_empty.run calls
  refine ⟨regular _, hrecords, exists_perform_error_iff _, fun _ _ => perform_error,
    fun name _ _ _ h => perform_column_error h name,
    (exists_build?_error_iff _).trans hrecords.columns_eq_nil_iff, fun g hbuild => ?_⟩
  obtain ⟨htags, hcolumns, hrows⟩ := of_build? hbuild
  exact ⟨htags, hcolumns, hrows, g.indexed⟩

/-- Two columns, a row that is too short, one that is not, and a column that comes too late. -/
def sampleCalls : List Call :=
  [.tags (.add "dis" (.str "Sites")), .column "id" [.addMarker "key"], .column "area" [],
   .row [some .marker], .row [some .marker, none], .column "dis" []]

theorem sample_calls_build_grid :
    ((empty.run sampleCalls).perform (.column "dis" [])).1 = .error .columnAfterRows ∧
      ((empty.run sampleCalls).perform (.column "dis" [])).2 = empty.run sampleCalls ∧
      ((DictDraft.empty.run []).perform (.addMarker "Key")).1 = .error (.tagName "Key") ∧
      (empty.run sampleCalls).perform (.column "dis" [.addMarker "Key"]) =
        (empty.run sampleCalls).perform (.column "dis" []) ∧
      ∃ g, (empty.run sampleCalls).build? = .ok g ∧ g.rows = [[some .marker, none]] ∧ g.Indexed := by
  have hlate : ((empty.run sampleCalls).perform (.column "dis" [])).1 =
      .error .columnAfterRows := rfl
  have hinner : ((DictDraft.empty.run []).perform (.addMarker "Key")).1 =
      .error (.tagName "Key") := rfl
  have hcolumns : (empty.run sampleCalls).columns ≠ [] := List.cons_ne_nil _ _
  obtain ⟨g, hbuild⟩ := exists_build? hcolumns
  obtain ⟨-, -, -, hunchanged, hcolumn, -, hgrid⟩ := calls_build_grid sampleCalls
  obtain ⟨-, -, hrows, hindexed⟩ := hgrid g hbuild
  exact ⟨hlate, hunchanged _ _ hlate, hinner, hcolumn "dis" [] _ _ hinner, g, hbuild, hrows, hindexed⟩

end GridDraft

end TagGrid
