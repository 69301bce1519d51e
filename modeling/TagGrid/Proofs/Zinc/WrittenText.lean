import TagGrid.Zinc.Writer

/-! # What the writers write

Where every value has a text in the chosen version, nothing is cut off and the pieces of
output are plain texts put together. These texts are named here, so that reading them
back can be stated without the writers.
-/

namespace TagGrid.Zinc

namespace Written

variable {α : Type} {f : α → Written} {text : α → List Char} {xs : List α}

theorem ofText_append (as bs : List Char) : ofText as ++ ofText bs = ofText (as ++ bs) := rfl

/-- Texts with a separator between them. -/
def joined (separator : Char) : List (List Char) → List Char
  | [] => []
  | [cs] => cs
  | cs :: ds :: rest => cs ++ separator :: joined separator (ds :: rest)

theorem concat_ofText (h : ∀ x ∈ xs, f x = ofText (text x)) :
    concat (xs.map f) = ofText (xs.flatMap text) := by
  induction xs with
  | nil => rfl
  | cons x xs ih =>
    have hx := h x List.mem_cons_self
    have hxs := ih fun y hy => h y (List.mem_cons_of_mem _ hy)
    show append (f x) (concat (xs.map f)) = _
    rw [hx, hxs, List.flatMap_cons]
    rfl

theorem separated_ofText {separator : Char} (h : ∀ x ∈ xs, f x = ofText (text x)) :
    separated separator (xs.map f) = ofText (joined separator (xs.map text)) := by
  induction xs with
  | nil => rfl
  | cons x xs ih =>
    have hx := h x List.mem_cons_self
    have hxs := ih fun y hy => h y (List.mem_cons_of_mem _ hy)
    cases xs with
    | nil => exact hx
    | cons y ys =>
      show f x ++ ofText [separator] ++ separated separator ((y :: ys).map f) = _
      rw [hx, hxs, ofText_append, ofText_append, List.append_assoc]
      rfl

end Written

open Written

variable {version : Version}

/-- The text of a value in a version that has one for it. -/
def textIn (version : Version) (v : Value) : List Char :=
  match version, v with
  | .v2, .bin m => ['B', 'i', 'n', '('] ++ m.mime.toList ++ [')']
  | _, v => v.zinc

/-- Whether a version has a text for the values of a kind. -/
def hasText (version : Version) (v : Value) : Bool := version.supports v.kind

theorem hasText_v3 (v : Value) : hasText .v3 v = true := by
  unfold hasText Version.supports
  rfl

theorem writeValue_eq {v : Value} (h : hasText version v = true) :
    writeValue version v = ofText (textIn version v) := by
  have hsupports : version.supports v.kind = true := h
  unfold writeValue Value.zincIn? textIn
  rw [if_pos hsupports]
  cases version with
  | v3 => rfl
  | v2 => cases v <;> rfl

/-- A tag as it is written. -/
def tagText (version : Version) (name : TagName) (v : Value) : List Char :=
  match v with
  | .marker => name.text.toList
  | v => name.text.toList ++ ':' :: textIn version v

theorem writeTag_eq {name : TagName} {v : Value} (h : hasText version v = true) :
    writeTag version name v = ofText (tagText version name v) := by
  cases v with
  | marker => rfl
  | _ =>
    simp only [writeTag, tagText, writeValue_eq h, ofText_append, List.append_assoc,
      List.cons_append, List.nil_append]

/-- Tags, each with a space before it. -/
def tagsText (version : Version) (entries : List (TagName × Value)) : List Char :=
  entries.flatMap fun e => ' ' :: tagText version e.1 e.2

/-- Tags with spaces between them. -/
def dictText (version : Version) (entries : List (TagName × Value)) : List Char :=
  joined ' ' (entries.map fun e => tagText version e.1 e.2)

theorem tagsText_eq_cons (e : TagName × Value) (entries : List (TagName × Value)) :
    tagsText version (e :: entries) = ' ' :: dictText version (e :: entries) := by
  induction entries generalizing e with
  | nil => simp [tagsText, dictText, joined]
  | cons f entries ih =>
    have hrest := ih f
    simp only [tagsText, dictText, List.flatMap_cons, List.map_cons, joined] at *
    rw [hrest]
    rfl

theorem writeDict_eq {d : Dict} (h : ∀ e ∈ d.entries, hasText version e.2 = true) :
    writeDict version d = ofText (dictText version d.entries) :=
  separated_ofText fun e he => writeTag_eq (h e he)

theorem writeTags_eq {d : Dict} (h : ∀ e ∈ d.entries, hasText version e.2 = true) :
    writeTags version d = ofText (tagsText version d.entries) := by
  apply concat_ofText
  intro e he
  rw [writeTag_eq (h e he)]
  rfl

/-- A column with its tags. -/
def columnText (version : Version) (c : Column) : List Char :=
  c.name.text.toList ++ tagsText version c.tags.entries

theorem writeColumn_eq {c : Column} (h : ∀ e ∈ c.tags.entries, hasText version e.2 = true) :
    writeColumn version c = ofText (columnText version c) := by
  unfold writeColumn columnText
  rw [writeTags_eq h, ofText_append]

/-- A cell. -/
def cellText (version : Version) : Option Value → List Char
  | none => []
  | some v => textIn version v

theorem writeCell_eq {cell : Option Value} (h : ∀ v, cell = some v → hasText version v = true) :
    writeCell version cell = ofText (cellText version cell) := by
  cases cell with
  | none => rfl
  | some v => exact writeValue_eq (h v rfl)

/-- The line of a row without its end. -/
def rowText (version : Version) (cells : List (Option Value)) : List Char :=
  if cells.all Option.isNone then 'N' :: List.replicate (cells.length - 1) ','
  else joined ',' (cells.map (cellText version))

theorem writeRow_eq {cells : List (Option Value)}
    (h : ∀ cell ∈ cells, ∀ v, cell = some v → hasText version v = true) :
    writeRow version cells = ofText (rowText version cells ++ ['\n']) := by
  have hcells : separated ',' (cells.map (writeCell version)) =
      ofText (joined ',' (cells.map (cellText version))) :=
    separated_ofText fun cell hcell => writeCell_eq (h cell hcell)
  unfold writeRow rowText
  split
  · rfl
  · rw [hcells]
    rfl

/-- A grid. -/
def gridText (version : Version) (g : Grid) : List Char :=
  "ver:".toList ++ (strLiteral version.name ++ (tagsText version g.tags.entries ++
    '\n' :: (joined ',' (g.columns.map (columnText version)) ++
      '\n' :: g.rows.flatMap fun cells => rowText version cells ++ ['\n'])))

theorem writeGrid_eq {g : Grid} (htags : ∀ e ∈ g.tags.entries, hasText version e.2 = true)
    (hcolumns : ∀ c ∈ g.columns, ∀ e ∈ c.tags.entries, hasText version e.2 = true)
    (hcells : ∀ cells ∈ g.rows, ∀ cell ∈ cells, ∀ v, cell = some v → hasText version v = true) :
    writeGrid version g = ofText (gridText version g) := by
  have hcolumnTexts : separated ',' (g.columns.map (writeColumn version)) =
      ofText (joined ',' (g.columns.map (columnText version))) :=
    separated_ofText fun c hc => writeColumn_eq (hcolumns c hc)
  have hrowTexts : concat (g.rows.map (writeRow version)) =
      ofText (g.rows.flatMap fun cells => rowText version cells ++ ['\n']) :=
    concat_ofText fun cells h => writeRow_eq (hcells cells h)
  unfold writeGrid gridText
  rw [writeTags_eq htags, hcolumnTexts, hrowTexts]
  simp only [ofText_append, List.append_assoc, List.cons_append, List.nil_append]

theorem ofGrid?_v3 (g : Grid) : ofGrid? .v3 g = .ok (String.ofList (gridText .v3 g)) := by
  unfold ofGrid?
  rw [writeGrid_eq (fun e _ => hasText_v3 e.2) (fun _ _ e _ => hasText_v3 e.2)
    fun _ _ _ _ v _ => hasText_v3 v]
  rfl

end TagGrid.Zinc
