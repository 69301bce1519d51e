import TagGrid.Proofs.Zinc.Tags

/-! # Layouts of written grids

A grid is written as lines, and a line as pieces with commas between them. How much space
stands around the pieces and how the lines end is a matter of layout. A layout changes
nothing inside a piece, where spaces and commas can have a meaning.
-/

namespace TagGrid.Zinc

open Text Written

variable {version : Version} {g : Grid} {gap before after piece line tail rest text : List Char}
  {pieces lines : List (List Char)}

/-- A run of spaces and tabs, or nothing. -/
def IsGap (cs : List Char) : Prop := ∀ c ∈ cs, isSpace c = true

instance (cs : List Char) : Decidable (IsGap cs) :=
  decidable_of_iff (cs.all isSpace = true) List.all_eq_true

/-- A line of pieces with commas between them and gaps around each. -/
inductive LineOf : List (List Char) → List Char → Prop where
  | last {before piece after : List Char} (hbefore : IsGap before) (hafter : IsGap after) :
      LineOf [piece] (before ++ (piece ++ after))
  | comma {before piece after line : List Char} {pieces : List (List Char)}
      (hbefore : IsGap before) (hafter : IsGap after) (hline : LineOf pieces line) :
      LineOf (piece :: pieces) (before ++ (piece ++ (after ++ ',' :: line)))

/-- What stands behind a line: its end, and then the rest of the text. Only the last line of
a text can do without an end. -/
inductive EndsLine : (tail rest : List Char) → Prop where
  | newline (rest : List Char) : EndsLine ('\n' :: rest) rest
  | returnNewline (rest : List Char) : EndsLine ('\r' :: '\n' :: rest) rest
  | endOfText : EndsLine [] []

/-- A text of ended lines with `rest` behind them. -/
inductive Ended : (lines : List (List Char)) → (rest text : List Char) → Prop where
  | nil (rest : List Char) : Ended [] rest rest
  | cons {line tail rest text : List Char} {lines : List (List Char)}
      (htail : EndsLine tail text) (hlines : Ended lines rest text) :
      Ended (line :: lines) rest (line ++ tail)

/-- The first line of a grid. -/
def headerText (version : Version) (g : Grid) : List Char :=
  "ver:".toList ++ (strLiteral version.name ++ tagsText version g.tags.entries)

/-- The pieces of a row. A row without values is not quite empty, since an empty line would
end the grid. -/
def rowPieces (version : Version) (cells : List (Option Value)) : List (List Char) :=
  if cells.all Option.isNone then ['N'] :: cells.tail.map fun _ => []
  else cells.map (cellText version)

/-- The lines of a grid, each as its pieces. -/
def gridLines (version : Version) (g : Grid) : List (List (List Char)) :=
  [headerText version g] :: g.columns.map (columnText version) ::
    g.rows.map (rowPieces version)

/-- A grid in some layout, with `rest` behind it. -/
def LaidOut (version : Version) (g : Grid) (rest text : List Char) : Prop :=
  ∃ lines, List.Forall₂ LineOf (gridLines version g) lines ∧ Ended lines rest text

/-! ## The layout of the writer -/

theorem IsGap.nil : IsGap [] := by simp [IsGap]

theorem joined_cons (piece : List Char) (hne : pieces ≠ []) :
    joined ',' (piece :: pieces) = piece ++ ',' :: joined ',' pieces := by
  cases pieces with
  | nil => exact absurd rfl hne
  | cons _ _ => rfl

/-- The pieces of a line without any gaps. -/
theorem lineOf_joined (hne : pieces ≠ []) : LineOf pieces (joined ',' pieces) := by
  induction pieces with
  | nil => exact absurd rfl hne
  | cons piece pieces ih =>
    by_cases hpieces : pieces = []
    · have hlast : LineOf [piece] ([] ++ (piece ++ [])) := .last IsGap.nil IsGap.nil
      simpa [hpieces, joined] using hlast
    · simpa [joined_cons piece hpieces] using LineOf.comma IsGap.nil IsGap.nil (ih hpieces)

theorem ended_newlines (lines : List (List Char)) (rest : List Char) :
    Ended lines rest (lines.flatMap (· ++ ['\n']) ++ rest) := by
  induction lines with
  | nil => exact .nil rest
  | cons line lines ih =>
    have hline : Ended (line :: lines) rest
        (line ++ '\n' :: (lines.flatMap (· ++ ['\n']) ++ rest)) := .cons (.newline _) ih
    simpa using hline

theorem joined_blank {α : Type} (piece : List Char) (xs : List α) :
    joined ',' (piece :: xs.map fun _ => []) = piece ++ List.replicate xs.length ',' := by
  induction xs generalizing piece with
  | nil => simp [joined]
  | cons x xs ih =>
    rw [List.map_cons, joined_cons piece (List.cons_ne_nil _ _), ih]
    rfl

theorem joined_rowPieces (version : Version) (cells : List (Option Value)) :
    joined ',' (rowPieces version cells) = rowText version cells := by
  unfold rowPieces rowText
  split
  · rw [joined_blank, List.length_tail]
    rfl
  · rfl

theorem rowPieces_ne_nil {cells : List (Option Value)} (hne : cells ≠ []) :
    rowPieces version cells ≠ [] := by
  unfold rowPieces
  split <;> simp [hne]

/-- The text of a grid is its lines without gaps, each ended by a line feed. -/
theorem gridText_eq (version : Version) (g : Grid) :
    gridText version g = ((gridLines version g).map (joined ',')).flatMap (· ++ ['\n']) := by
  simp [gridText, gridLines, headerText, joined, joined_rowPieces, List.flatMap_map,
    Function.comp_def]

theorem laidOut_gridText (version : Version) (g : Grid) (rest : List Char) :
    LaidOut version g rest (gridText version g ++ rest) := by
  refine ⟨(gridLines version g).map (joined ','), ?_, ?_⟩
  · have hlines : ∀ pieces ∈ gridLines version g, pieces ≠ [] := by
      have hrows : ∀ cells ∈ g.rows, rowPieces version cells ≠ [] := by
        intro cells hcells
        apply rowPieces_ne_nil
        rintro rfl
        exact g.nonempty (List.length_eq_zero_iff.1 (g.rectangular [] hcells).symm)
      simpa [gridLines, g.nonempty] using hrows
    rw [List.forall₂_map_right_iff, List.forall₂_same]
    intro pieces hpieces
    exact lineOf_joined (hlines pieces hpieces)
  · rw [gridText_eq]
    exact ended_newlines _ rest

/-! ## Taking a layout apart -/

theorem skipSpaces_gap (hgap : IsGap gap) (cs : List Char) :
    skipSpaces (gap ++ cs) = skipSpaces cs := List.dropWhile_append_of_pos hgap

theorem skipBlanks_gap (hgap : IsGap gap) (cs : List Char) :
    skipBlanks (gap ++ cs) = skipBlanks cs :=
  List.dropWhile_append_of_pos fun c hc => isBlank_of_isSpace (hgap c hc)

theorem LineOf.ne_nil (h : LineOf pieces line) : pieces ≠ [] := by
  cases h with
  | last => simp
  | comma => simp

/-- The first piece of a line stands between gaps, and behind it is the end of the line or a
comma and the other pieces. -/
theorem LineOf.uncons (h : LineOf (piece :: pieces) line) :
    ∃ before after more, IsGap before ∧ IsGap after ∧
      line = before ++ (piece ++ (after ++ more)) ∧
      (pieces = [] ∧ more = [] ∨ ∃ line', more = ',' :: line' ∧ LineOf pieces line') := by
  cases h with
  | last hbefore hafter => exact ⟨_, _, [], hbefore, hafter, by simp, .inl ⟨rfl, rfl⟩⟩
  | comma hbefore hafter hline => exact ⟨_, _, _, hbefore, hafter, rfl, .inr ⟨_, rfl, hline⟩⟩

theorem Ended.uncons (h : Ended (line :: lines) rest text) :
    ∃ tail text', text = line ++ tail ∧ EndsLine tail text' ∧ Ended lines rest text' := by
  cases h with
  | cons htail hlines => exact ⟨_, _, rfl, htail, hlines⟩

/-! ## What stands behind a piece -/

/-- A text behind a piece and its gap: a comma, a line end or nothing. -/
def EndsPiece (rest : List Char) : Prop := ∀ c ∈ rest.head?, c = ',' ∨ c = '\n' ∨ c = '\r'

theorem EndsPiece.comma (rest : List Char) : EndsPiece (',' :: rest) := by simp [EndsPiece]

theorem EndsLine.endsPiece (h : EndsLine tail rest) : EndsPiece tail := by
  cases h <;> simp [EndsPiece]

theorem EndsLine.head?_ne_comma (h : EndsLine tail rest) : tail.head? ≠ some ',' := by
  cases h <;> simp

namespace EndsPiece

theorem head_mem_delimiters (h : EndsPiece rest) : ∀ c ∈ rest.head?, c ∈ delimiters := by
  intro c hc
  rcases h c hc with rfl | rfl | rfl <;> decide

theorem skipSpaces_eq (h : EndsPiece rest) : skipSpaces rest = rest := by
  apply Zinc.skipSpaces_eq
  intro c hc
  rcases h c hc with rfl | rfl | rfl <;> rfl

theorem skipSpaces_gap (h : EndsPiece rest) (hgap : IsGap gap) :
    skipSpaces (gap ++ rest) = rest := by
  rw [Zinc.skipSpaces_gap hgap, h.skipSpaces_eq]

/-- After a gap no quote follows, so a gap behind a ref does not start its display text. -/
theorem follows (h : EndsPiece rest) (hgap : IsGap gap) : Follows (gap ++ rest) := by
  have hquote {gap : List Char} (hgap : IsGap gap) : (gap ++ rest).head? ≠ some '"' := by
    cases gap with
    | nil =>
      intro hhead
      simpa using h '"' hhead
    | cons c gap =>
      have hc := hgap c List.mem_cons_self
      simp only [List.cons_append, List.head?_cons, ne_eq, Option.some.injEq]
      rintro rfl
      cases hc
  cases gap with
  | nil =>
    cases rest with
    | nil => exact Follows.nil
    | cons c rest =>
      refine Follows.cons (h.head_mem_delimiters c rfl) ?_
      rintro rfl
      simpa using h ' ' rfl
  | cons c gap =>
    have hc : c = ' ' ∨ c = '\t' := by simpa [isSpace] using hgap c List.mem_cons_self
    have hgap' : IsGap gap := fun d hd => hgap d (List.mem_cons_of_mem _ hd)
    refine ⟨?_, fun _ => hquote hgap'⟩
    rcases hc with rfl | rfl <;> decide

theorem endsTags (h : EndsPiece rest) (hgap : IsGap gap) : EndsTags (gap ++ rest) := by
  refine ⟨h.follows hgap, ?_⟩
  rw [h.skipSpaces_gap hgap]
  exact h.head_mem_delimiters

end EndsPiece

/-! ## Lines that are not empty -/

/-- A text whose first character is no line end. -/
def StartsLine (cs : List Char) : Prop := ∃ c more, cs = c :: more ∧ c ≠ '\n' ∧ c ≠ '\r'

theorem StartsLine.append (h : StartsLine text) (rest : List Char) : StartsLine (text ++ rest) := by
  obtain ⟨c, more, rfl, hc⟩ := h
  exact ⟨c, more ++ rest, rfl, hc⟩

theorem StartsLine.behind_gap (h : StartsLine text) (hgap : IsGap gap) : StartsLine (gap ++ text) := by
  cases gap with
  | nil => exact h
  | cons c gap =>
    refine ⟨c, gap ++ text, rfl, ?_⟩
    have hc : c = ' ' ∨ c = '\t' := by simpa [isSpace] using hgap c List.mem_cons_self
    rcases hc with rfl | rfl <;> decide

/-- A line is not empty if its first piece is not, or if a comma follows that. -/
theorem LineOf.startsLine (h : LineOf (piece :: pieces) line)
    (hpiece : StartsLine piece ∨ piece = [] ∧ pieces ≠ []) : StartsLine line := by
  obtain ⟨before, after, more, hbefore, hafter, rfl, hmore⟩ := h.uncons
  apply StartsLine.behind_gap _ hbefore
  rcases hpiece with hpiece | ⟨rfl, hne⟩
  · exact hpiece.append _
  · rcases hmore with ⟨hnil, -⟩ | ⟨line', rfl, -⟩
    · exact absurd hnil hne
    · have hcomma : StartsLine (',' :: line') := ⟨',', line', rfl, by decide, by decide⟩
      exact hcomma.behind_gap hafter

theorem startsLine_textIn (version : Version) (v : Value) : StartsLine (textIn version v) := by
  obtain ⟨c, cs, hcs, hc⟩ := exists_textIn_cons version v
  obtain ⟨hdelimiter, -⟩ := startsValue_spec hc
  refine ⟨c, cs, hcs, ?_, ?_⟩
  · rintro rfl
    exact hdelimiter (by decide)
  · rintro rfl
    exact hdelimiter (by decide)

/-- The line of a row is not the empty line that ends a grid. -/
theorem startsLine_rowPieces {cells : List (Option Value)}
    (h : LineOf (rowPieces version cells) line) : StartsLine line := by
  unfold rowPieces at h
  split at h
  · exact h.startsLine (.inl ⟨'N', [], rfl, by decide, by decide⟩)
  · rename_i hblank
    cases cells with
    | nil => simp at hblank
    | cons cell cells =>
      apply LineOf.startsLine h
      cases cell with
      | some v => exact .inl (startsLine_textIn version v)
      | none =>
        refine .inr ⟨rfl, ?_⟩
        rintro hnil
        simp [List.map_eq_nil_iff.1 hnil] at hblank

end TagGrid.Zinc
