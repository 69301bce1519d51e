import TagGrid.Proofs.Grid.Shape
import TagGrid.Proofs.Zinc.Grids

/-! # What is read in place of a grid

Reading a grid is followed here with the outcome for each of its values left open. Where the
text of a value ends does not depend on what it is read as, so whatever is read from the text
of a grid is a grid of the same shape.
-/

namespace TagGrid

namespace Zinc

namespace Outcome

variable {α β : Type} {rest rest' : List Char} {p : α → Prop} {o : Outcome α}

/-- If something was read, it has a property and exactly `rest` is left. -/
def Leaves (rest : List Char) (p : α → Prop) : Outcome α → Prop
  | ok value rest' => rest' = rest ∧ p value
  | fail .. => True

namespace Leaves

theorem of_ok {value : α} (h : Leaves rest p o) (ho : o = ok value rest') :
    rest' = rest ∧ p value := by
  rw [ho] at h
  exact h

theorem bind {q : β → Prop} {next : α → List Char → Outcome β} (h : Leaves rest p o)
    (hnext : ∀ value, p value → Leaves rest' q (next value rest)) :
    Leaves rest' q (o.bind next) := by
  cases o with
  | ok value mid =>
    obtain ⟨rfl, hvalue⟩ := h
    exact hnext value hvalue
  | fail fault place mid => trivial

theorem map {q : β → Prop} {f : α → β} (h : Leaves rest p o)
    (hf : ∀ value, p value → q (f value)) : Leaves rest q (o.map f) :=
  h.bind fun value hvalue => ⟨rfl, hf value hvalue⟩

theorem mono {q : α → Prop} (h : Leaves rest p o) (hq : ∀ value, p value → q value) :
    Leaves rest q o := by
  cases o with
  | ok value mid => exact ⟨h.1, hq value h.2⟩
  | fail fault place mid => trivial

end Leaves

end Outcome

open Text Outcome

variable {version : Version} {R : Value → Value → Prop} {q : Value → Prop}
  {cs line tail rest rest' text : List Char} {before : Dict} {v : Value}
  {entries : List (TagName × Value)} {lines : List (List Char)} {draft : GridDraft}
  {cell : Option Value} {cells : List (Option Value)}

/-- If a text is read as a value at all, then up to its end and as one with a property. -/
def ReadsOnly (q : Value → Prop) (text : List Char) : Prop :=
  ∀ setting rest, Follows rest →
    Leaves rest (fun value => ∃ w, value = some w ∧ q w) (readValue setting (text ++ rest))

theorem ReadsBack.readsOnly {q : Value → Prop} {text : List Char} {v : Value}
    (h : ReadsBack text v) (hq : q v) : ReadsOnly q text := by
  intro setting rest hrest
  rw [h setting rest hrest]
  exact ⟨rfl, v, rfl, hq⟩

theorem ReadsOnly.mono {q r : Value → Prop} {text : List Char} (h : ReadsOnly q text)
    (hr : ∀ w, q w → r w) : ReadsOnly r text := by
  intro setting rest hrest
  refine (h setting rest hrest).mono ?_
  rintro value ⟨w, rfl, hw⟩
  exact ⟨w, rfl, hr w hw⟩

theorem ReadsOnly.of_readsBack {q : Value → Prop} {text : List Char} {v : Value}
    (h : ReadsOnly q text) (hread : ReadsBack text v) : q v := by
  obtain ⟨-, w, hw, hq⟩ := (h .data [] Follows.nil).of_ok (hread .data [] Follows.nil)
  obtain rfl := Option.some.inj hw
  exact hq

/-! ## Tags -/

/-- A tag is its name and something behind it, which is read as a value. -/
theorem exists_leaves_behind_name (hread : ReadsOnly q (textIn version v))
    (hfollows : Follows rest) (hcolon : (skipSpaces rest).head? ≠ some ':') (name : TagName) :
    ∃ behind rest', tagText version name v = name.text.toList ++ behind ∧
      Leaves rest' (fun value => ∃ w, value = some w ∧ q w) (readTagValue .data (behind ++ rest)) ∧
      skipSpaces rest' = skipSpaces rest ∧ Stops isNameChar (behind ++ rest) := by
  have hvalue : Leaves rest (fun value => ∃ w, value = some w ∧ q w)
      (readTagValue .data (':' :: (textIn version v ++ rest))) := by
    unfold readTagValue
    rw [skipSpaces_cons _ rfl]
    show Leaves rest _ (readValue .data (skipSpaces (textIn version v ++ rest)))
    rw [skipSpaces_textIn]
    exact hread .data rest hfollows
  cases v with
  | marker =>
    have hq : q .marker := hread.of_readsBack (by cases version <;> exact readsBack_marker)
    refine ⟨[], skipSpaces rest, (List.append_nil _).symm, ?_, skipSpaces_skipSpaces rest,
      hfollows.stops (by decide)⟩
    rw [List.nil_append, readTagValue_marker hcolon]
    exact ⟨rfl, .marker, rfl, hq⟩
  | _ => exact ⟨_, rest, rfl, hvalue, rfl, Stops.cons rfl⟩

/-- Whatever is read as the value of a tag, reading the tags goes on behind it. -/
theorem leaves_readTags_name {name : TagName} {behind : List Char} {r : Dict → Prop}
    (hcs : skipSpaces cs = name.text.toList ++ behind) (hstops : Stops isNameChar behind)
    (hvalue : Leaves rest' (fun value => ∃ w, value = some w ∧ q w) (readTagValue .data behind))
    (hnext : ∀ w, q w → Leaves rest r (readTags .data (before.set name w) rest')) :
    Leaves rest r (readTags .data before cs) := by
  rw [readTags_name hcs hstops]
  refine hvalue.bind ?_
  rintro value ⟨w, rfl, hw⟩
  rw [Dict.addOption?_text]
  exact hnext w hw

theorem leaves_readTags_entries (hread : ∀ e ∈ entries, ReadsOnly (R · e.2) (textIn version e.2))
    (hrest : EndsTags rest) (before : Dict)
    (hsorted : ((before.entries ++ entries).map Prod.fst).Pairwise (·.text < ·.text))
    (hcs : skipSpaces cs = skipSpaces (tagsText version entries ++ rest)) :
    Leaves (skipSpaces rest)
      (fun tags => ∃ read, tags.entries = before.entries ++ read ∧
        List.Forall₂ (fun e f => e.1 = f.1 ∧ R e.2 f.2) read entries)
      (readTags .data before cs) := by
  induction entries generalizing before cs with
  | nil =>
    rw [readTags_end hcs hrest]
    exact ⟨rfl, [], (List.append_nil _).symm, .nil⟩
  | cons e entries ih =>
    obtain ⟨hfollows, hcolon⟩ := endsTag version entries hrest
    obtain ⟨behind, rest', htext, hvalue, hskip, hstops⟩ :=
      exists_leaves_behind_name (hread e List.mem_cons_self) hfollows hcolon e.1
    have hcs' : skipSpaces cs =
        e.1.text.toList ++ (behind ++ (tagsText version entries ++ rest)) := by
      rw [hcs]
      simp only [tagsText, List.flatMap_cons, List.cons_append, htext, List.append_assoc,
        skipSpaces_cons_space]
      exact skipSpaces_name e.1 _
    refine leaves_readTags_name hcs' hstops hvalue fun w hw => ?_
    -- The names are read as they were written, so the entry goes behind the others whatever
    -- its value is.
    have hset : (before.set e.1 w).entries = before.entries ++ [(e.1, w)] := by
      apply Dict.insertEntry_append
      intro d hd
      rw [List.map_append, List.pairwise_append] at hsorted
      exact hsorted.2.2 d.1 (List.mem_map_of_mem hd) e.1 List.mem_cons_self
    have hsorted' :
        (((before.set e.1 w).entries ++ entries).map Prod.fst).Pairwise (·.text < ·.text) := by
      simpa [hset] using hsorted
    have hothers := ih (fun f hf => hread f (List.mem_cons_of_mem _ hf)) (before.set e.1 w)
      hsorted' hskip
    refine hothers.mono ?_
    rintro tags ⟨read, htags, hrelated⟩
    exact ⟨(e.1, w) :: read, by simp [htags, hset], .cons ⟨rfl, hw⟩ hrelated⟩

theorem leaves_readTags {d : Dict} (hread : ∀ e ∈ d.entries, ReadsOnly (R · e.2) (textIn version e.2))
    (hrest : EndsTags rest) (hcs : skipSpaces cs = skipSpaces (tagsText version d.entries ++ rest)) :
    Leaves (skipSpaces rest) (Dict.Related R · d) (readTags .data .empty cs) := by
  have hsorted : ((Dict.empty.entries ++ d.entries).map Prod.fst).Pairwise (·.text < ·.text) :=
    List.pairwise_map.2 d.sorted
  refine (leaves_readTags_entries hread hrest .empty hsorted hcs).mono ?_
  rintro tags ⟨read, htags, hrelated⟩
  unfold Dict.Related
  rw [htags]
  exact hrelated

/-! ## Columns -/

theorem leaves_readColumn {c : Column}
    (hread : ∀ e ∈ c.tags.entries, ReadsOnly (R · e.2) (textIn version e.2))
    (hrest : EndsTags rest) (hrows : draft.rows = [])
    (hnew : c.name ∉ draft.columns.map Column.name) :
    Leaves (skipSpaces rest)
      (fun draft' => draft'.tags = draft.tags ∧ draft'.rows = [] ∧
        ∃ c', draft'.columns = draft.columns ++ [c'] ∧ c'.Related R c)
      (readColumn .data draft (columnText version c ++ rest)) := by
  obtain ⟨b, hadd, -⟩ := GridDraft.exists_addColumn? hrows hnew
  have hstops : Stops isNameChar (tagsText version c.tags.entries ++ rest) :=
    (endsTag version c.tags.entries hrest).1.stops (by decide)
  simp only [readColumn, columnText, List.append_assoc, skipSpaces_name,
    readName_name c.name hstops, bind_ok, hadd, check_ok]
  refine (leaves_readTags hread hrest rfl).map fun tags hrelated => ?_
  obtain ⟨b', hadd', htags, hcolumns, hrows'⟩ :=
    GridDraft.exists_addColumn? (c := ⟨c.name, tags⟩) hrows hnew
  obtain rfl : b = b' := Except.ok.inj (hadd.symm.trans hadd')
  exact ⟨htags, hrows', ⟨c.name, tags⟩, hcolumns, rfl, hrelated⟩

theorem leaves_readColumns_line {columns : List Column}
    (hread : ∀ c ∈ columns, ∀ e ∈ c.tags.entries, ReadsOnly (R · e.2) (textIn version e.2))
    (hrows : draft.rows = [])
    (hdistinct : ((draft.columns ++ columns).map Column.name).Nodup)
    (hline : LineOf (columns.map (columnText version)) line) (htail : EndsLine tail rest) :
    Leaves tail
      (fun draft' => draft'.tags = draft.tags ∧ draft'.rows = [] ∧
        ∃ read, draft'.columns = draft.columns ++ read ∧
          List.Forall₂ (Column.Related R) read columns)
      (readColumns .data draft (line ++ tail)) := by
  induction columns generalizing draft line with
  | nil => exact absurd rfl hline.ne_nil
  | cons c columns ih =>
    have hnew := name_notMem_of_distinct hdistinct
    have hcolumn {after behind : List Char} (hafter : IsGap after) (hbehind : EndsPiece behind) :=
      leaves_readColumn (hread c List.mem_cons_self) (hbehind.endsTags hafter) hrows hnew
    obtain ⟨before, after, more, hbefore, hafter, rfl, hmore⟩ := hline.uncons
    rcases hmore with ⟨hnil, rfl⟩ | ⟨line', rfl, hline'⟩
    · obtain rfl : columns = [] := List.map_eq_nil_iff.1 hnil
      have hlast := hcolumn hafter htail.endsPiece
      rw [htail.endsPiece.skipSpaces_gap hafter, ← readColumn_gap hbefore] at hlast
      simp only [List.append_nil, List.append_assoc]
      rw [readColumns_eq]
      refine hlast.bind ?_
      rintro draft' ⟨htags, hrows', c', hcolumns, hrelated⟩
      rw [readBehindColumn_end htail]
      exact ⟨rfl, htags, hrows', [c'], hcolumns, .cons hrelated .nil⟩
    · have hcomma : EndsPiece (',' :: (line' ++ tail)) := EndsPiece.comma _
      have hfirst := hcolumn hafter hcomma
      rw [hcomma.skipSpaces_gap hafter, ← readColumn_gap hbefore] at hfirst
      simp only [List.append_assoc, List.cons_append]
      rw [readColumns_eq]
      refine hfirst.bind ?_
      rintro draft₁ ⟨htags₁, hrows₁, c', hcolumns₁, hrelated⟩
      have hdistinct₁ : ((draft₁.columns ++ columns).map Column.name).Nodup := by
        rw [hcolumns₁]
        simpa [hrelated.1] using hdistinct
      have hothers := ih (fun d hd => hread d (List.mem_cons_of_mem _ hd)) hrows₁ hdistinct₁ hline'
      rw [readBehindColumn_comma]
      refine hothers.mono ?_
      rintro draft' ⟨htags', hrows', read, hcolumns', hrelated'⟩
      refine ⟨htags'.trans htags₁, hrows', c' :: read, ?_, .cons hrelated hrelated'⟩
      rw [hcolumns', hcolumns₁, List.append_assoc]
      rfl

/-! ## Rows -/

/-- A cell is read between gaps, in front of another cell and at the end of a row. -/
theorem leaves_readCell (hread : ∀ v, cell = some v → ReadsOnly (R · v) (textIn version v))
    {before after rest : List Char} (hbefore : IsGap before) (hafter : IsGap after)
    (hrest : EndsPiece rest) :
    Leaves rest (Option.Rel R · cell)
      (readCell .data (before ++ (cellText version cell ++ (after ++ rest)))) := by
  cases cell with
  | none =>
    rw [cellText, readsAsCell_blank before after rest hbefore hafter hrest]
    exact ⟨rfl, .none⟩
  | some v =>
    obtain ⟨c, cs, hcs, hc⟩ := exists_textIn_cons version v
    have hvalue := hread v rfl .data (after ++ rest) (hrest.follows hafter)
    rw [hcs, List.cons_append] at hvalue
    rw [cellText, hcs, List.cons_append, readCell_value hc hbefore]
    apply hvalue.bind
    rintro value ⟨w, rfl, hw⟩
    exact ⟨hrest.skipSpaces_gap hafter, .some hw⟩

theorem leaves_readCells_line
    (hread : ∀ x ∈ cells, ∀ v, x = some v → ReadsOnly (R · v) (textIn version v))
    (hline : LineOf (cells.map (cellText version)) line) (htail : EndsLine tail rest)
    (columns : Nat) :
    Leaves tail (RelatedCells R · cells)
      (readCells .data columns (cells.length - 1) (line ++ tail)) := by
  induction cells generalizing line with
  | nil => exact absurd rfl hline.ne_nil
  | cons cell cells ih =>
    obtain ⟨before, after, more, hbefore, hafter, rfl, hmore⟩ := hline.uncons
    have hcell {behind : List Char} (hbehind : EndsPiece behind) :=
      leaves_readCell (hread cell List.mem_cons_self) hbefore hafter hbehind
    rcases hmore with ⟨hnil, rfl⟩ | ⟨line', rfl, hline'⟩
    · obtain rfl : cells = [] := List.map_eq_nil_iff.1 hnil
      simp only [List.append_nil, List.append_assoc]
      exact (hcell htail.endsPiece).map fun read hrelated => .cons hrelated .nil
    · obtain ⟨missing, hmissing⟩ : ∃ missing, cells.length = missing + 1 := by
        apply Nat.exists_eq_succ_of_ne_zero
        intro hzero
        rw [List.length_eq_zero_iff.1 hzero] at hline'
        exact hline'.ne_nil rfl
      have hothers := ih (fun x hx => hread x (List.mem_cons_of_mem _ hx)) hline'
      simp only [List.length_cons, hmissing, Nat.add_sub_cancel] at hothers ⊢
      simp only [readCells, List.append_assoc, List.cons_append]
      refine (hcell (EndsPiece.comma _)).bind fun read hrelated => ?_
      exact hothers.map fun reads hothers => .cons hrelated hothers

theorem leaves_readRow_line
    (hread : ∀ x ∈ cells, ∀ v, x = some v → ReadsOnly (R · v) (textIn version v))
    (hcolumns : draft.columns ≠ []) (hlength : cells.length = draft.columns.length)
    (hline : LineOf (rowPieces version cells) line) (htail : EndsLine tail rest) :
    Leaves rest
      (fun draft' => draft'.tags = draft.tags ∧ draft'.columns = draft.columns ∧
        ∃ read, draft'.rows = draft.rows ++ [read] ∧ RelatedCells R read cells)
      (readRow .data draft (line ++ tail)) := by
  have hpos : draft.columns.length ≠ 0 := by
    intro hzero
    exact hcolumns (List.length_eq_zero_iff.1 hzero)
  have hcells : Leaves tail (RelatedCells R · cells)
      (readCells .data draft.columns.length (cells.length - 1) (line ++ tail)) := by
    by_cases hblank : cells.all Option.isNone = true
    · -- Without values there is nothing to leave open.
      have hnone : ∀ x ∈ cells, x = none := by
        intro x hx
        exact Option.isNone_iff_eq_none.1 (List.all_eq_true.1 hblank x hx)
      have hne : cells ≠ [] := by
        rintro rfl
        exact hpos hlength.symm
      have hpieces : List.Forall₂ ReadsAsCell (rowPieces version cells) cells := by
        apply forall₂_rowPieces hne
        intro x hx v heq
        rw [hnone x hx] at heq
        cases heq
      rw [readCells_line hpieces hline htail]
      refine ⟨rfl, List.forall₂_same.2 fun x hx => ?_⟩
      rw [hnone x hx]
      exact .none
    · rw [rowPieces, if_neg hblank] at hline
      exact leaves_readCells_line hread hline htail _
  rw [hlength] at hcells
  simp only [readRow, hpos, if_false]
  refine hcells.bind fun read hrelated => ?_
  simp only [htail.head?_ne_comma, if_false, readLineEnd_endsLine htail, bind_ok]
  cases hadd : draft.addRow? read with
  | error v => trivial
  | ok draft' =>
    obtain ⟨htags, hcolumns', hrows⟩ := GridDraft.of_addRow? hadd
    exact ⟨rfl, htags, hcolumns', read, hrows, hrelated⟩

theorem leaves_readRows_lines {rows : List (List (Option Value))}
    (hread : ∀ cells ∈ rows, ∀ x ∈ cells, ∀ v, x = some v → ReadsOnly (R · v) (textIn version v))
    (hcolumns : draft.columns ≠ [])
    (hlength : ∀ cells ∈ rows, cells.length = draft.columns.length)
    (hlines : List.Forall₂ LineOf (rows.map (rowPieces version)) lines)
    (hended : Ended lines [] text) :
    Leaves []
      (fun draft' => draft'.tags = draft.tags ∧ draft'.columns = draft.columns ∧
        ∃ read, draft'.rows = draft.rows ++ read ∧ List.Forall₂ (RelatedCells R) read rows)
      (readRows .data draft text) := by
  induction rows generalizing draft lines text with
  | nil =>
    cases hlines
    cases hended
    rw [readRows_nil]
    exact ⟨rfl, rfl, rfl, [], (List.append_nil _).symm, .nil⟩
  | cons cells rows ih =>
    cases hlines with
    | @cons _ line _ lines hline hlines =>
      obtain ⟨tail, text', rfl, htail, hended'⟩ := hended.uncons
      have hstart := startsLine_rowPieces hline
      have hrow := leaves_readRow_line (hread cells List.mem_cons_self) hcolumns
        (hlength cells List.mem_cons_self) hline htail
      rw [readRows_row (hstart.append tail)]
      refine hrow.bind ?_
      rintro draft₁ ⟨htags₁, hcolumns₁, read, hrows₁, hrelated⟩
      have hlength₁ : ∀ cells ∈ rows, cells.length = draft₁.columns.length := by
        intro cells' hcells'
        rw [hcolumns₁]
        exact hlength cells' (List.mem_cons_of_mem _ hcells')
      have hothers := ih (fun cells' hcells' => hread cells' (List.mem_cons_of_mem _ hcells'))
        (hcolumns₁ ▸ hcolumns) hlength₁ hlines hended'
      refine hothers.mono ?_
      rintro draft' ⟨htags', hcolumns', reads, hrows', hrelated'⟩
      refine ⟨htags'.trans htags₁, hcolumns'.trans hcolumns₁, read :: reads, ?_,
        .cons hrelated hrelated'⟩
      rw [hrows', hrows₁, List.append_assoc]
      rfl

/-! ## Grids -/

/-- Whatever is read from the text of a grid, in any layout, is a grid of the same shape, with
values that are read from the texts of their counterparts. -/
theorem leaves_readGrid {g : Grid}
    (htags : ∀ e ∈ g.tags.entries, ReadsOnly (R · e.2) (textIn version e.2))
    (hcolumns : ∀ c ∈ g.columns, ∀ e ∈ c.tags.entries, ReadsOnly (R · e.2) (textIn version e.2))
    (hcells : ∀ cells ∈ g.rows, ∀ x ∈ cells, ∀ v, x = some v →
      ReadsOnly (R · v) (textIn version v))
    (hlaid : LaidOut version g [] text) :
    Leaves [] (Grid.Related R · g) (readGrid .data text) := by
  obtain ⟨lines, hlines, hended⟩ := hlaid
  obtain ⟨header, others, hheader, hothers, rfl⟩ := List.forall₂_cons_left_iff.1 hlines
  obtain ⟨columns, rows, hcolumnLine, hrowLines, rfl⟩ := List.forall₂_cons_left_iff.1 hothers
  obtain ⟨tail, text₁, rfl, htail, hended₁⟩ := hended.uncons
  obtain ⟨tail', text₂, rfl, htail', hended₂⟩ := hended₁.uncons
  obtain ⟨before, after, more, hbefore, hafter, rfl, hmore⟩ := hheader.uncons
  obtain rfl : more = [] := by
    rcases hmore with ⟨-, rfl⟩ | ⟨line', -, hline'⟩
    · rfl
    · exact absurd rfl hline'.ne_nil
  have htagsEnd := leaves_readTags htags (htail.endsPiece.endsTags hafter) rfl
  rw [htail.endsPiece.skipSpaces_gap hafter] at htagsEnd
  unfold readGrid headerText
  simp only [List.append_assoc, List.append_nil, readHeader_gap hbefore, readHeader_text, bind_ok]
  refine htagsEnd.bind fun tags htagsRelated => ?_
  have hdistinct : (((GridDraft.empty.setTags tags).columns ++ g.columns).map
      Column.name).Nodup := g.distinct
  simp only [readLineEnd_endsLine htail, bind_ok]
  refine (leaves_readColumns_line hcolumns rfl hdistinct hcolumnLine htail').bind ?_
  rintro draft₁ ⟨htags₁, hrows₁, columns', hcols₁, hcolumnsRelated⟩
  have hcols₁ : draft₁.columns = columns' := hcols₁
  have hlength₁ : draft₁.columns.length = g.columns.length := by
    rw [hcols₁]
    exact hcolumnsRelated.length_eq
  have hnonempty : draft₁.columns ≠ [] := by
    intro hnil
    rw [hnil, List.length_nil] at hlength₁
    exact g.nonempty (List.length_eq_zero_iff.1 hlength₁.symm)
  have hlength : ∀ cells ∈ g.rows, cells.length = draft₁.columns.length := by
    intro cells hcells
    rw [hlength₁]
    exact g.rectangular cells hcells
  simp only [readLineEnd_endsLine htail', bind_ok]
  refine (leaves_readRows_lines hcells hnonempty hlength hrowLines hended₂).bind ?_
  rintro draft₂ ⟨htags₂, hcols₂, rows', hrows₂, hrowsRelated⟩
  rw [hrows₁, List.nil_append] at hrows₂
  cases hbuild : draft₂.build? with
  | error v => trivial
  | ok read =>
    obtain ⟨htags₃, hcols₃, hrows₃⟩ := GridDraft.of_build? hbuild
    have htags₄ : read.tags = tags := htags₃.trans (htags₂.trans htags₁)
    refine ⟨rfl, ?_, ?_, ?_⟩
    · rw [htags₄]
      exact htagsRelated
    · rw [hcols₃, hcols₂, hcols₁]
      exact hcolumnsRelated
    · rw [hrows₃, hrows₂]
      exact hrowsRelated

end Zinc

end TagGrid
