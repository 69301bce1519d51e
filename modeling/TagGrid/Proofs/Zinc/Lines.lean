import TagGrid.Proofs.Value.WellFormed
import TagGrid.Proofs.Zinc.Version2

/-! # The lines of written grids

No text of a value holds a control character, whatever strings the value is made of, and no
line of a grid is empty. So the line feeds of a written grid are exactly the ends of its lines:
one for the header, one for the columns and one for each row.
-/

namespace TagGrid

namespace Zinc

open Text Written

variable {version : Version} {c quote : Char} {cs text : List Char} {pieces : List (List Char)}

/-! ## Texts without control characters -/

/-- A text without control characters below the space, so that it stays on its line. -/
def OnOneLine (cs : List Char) : Prop := ∀ c ∈ cs, 32 ≤ c.toNat

namespace OnOneLine

@[simp] theorem nil : OnOneLine [] := nofun

@[simp] theorem cons_iff : OnOneLine (c :: cs) ↔ 32 ≤ c.toNat ∧ OnOneLine cs := List.forall_mem_cons

@[simp] theorem append_iff {as bs : List Char} :
    OnOneLine (as ++ bs) ↔ OnOneLine as ∧ OnOneLine bs := List.forall_mem_append

theorem flatMap {α : Type} {f : α → List Char} {xs : List α} (h : ∀ x ∈ xs, OnOneLine (f x)) :
    OnOneLine (xs.flatMap f) := by
  intro c hc
  obtain ⟨x, hx, hc⟩ := List.mem_flatMap.1 hc
  exact h x hx c hc

theorem joined {separator : Char} (hseparator : 32 ≤ separator.toNat)
    (h : ∀ piece ∈ pieces, OnOneLine piece) : OnOneLine (Written.joined separator pieces) := by
  induction pieces with
  | nil => exact nil
  | cons piece pieces ih =>
    obtain ⟨hpiece, hpieces⟩ := List.forall_mem_cons.1 h
    cases pieces with
    | nil => exact hpiece
    | cons next pieces => exact append_iff.2 ⟨hpiece, cons_iff.2 ⟨hseparator, ih hpieces⟩⟩

theorem newline_not_mem (h : OnOneLine cs) : '\n' ∉ cs := by
  intro hmem
  exact absurd (h '\n' hmem) (by decide)

end OnOneLine

/-! ## Texts of values -/

theorem toNat_ge_of_isDigit (h : c.isDigit = true) : 32 ≤ c.toNat := by
  have hdigit := isDigit_iff.1 h
  omega

theorem toNat_ge_of_isAlphanum (h : c.isAlphanum = true) : 32 ≤ c.toNat := by
  rcases Bool.or_eq_true_iff.1 h with halpha | hdigit
  · have hletter := isAlpha_iff.1 halpha
    omega
  · exact toNat_ge_of_isDigit hdigit

/-- A text of letters and digits and of other characters that stay on a line. -/
theorem onOneLine_of_chars {others : List Char} (hothers : OnOneLine others)
    (h : ∀ c ∈ cs, LetterOrDigit c ∨ c ∈ others) : OnOneLine cs := by
  intro c hc
  rcases h c hc with halphanum | hother
  · exact toNat_ge_of_isAlphanum (letterOrDigit_iff.1 halphanum)
  · exact hothers c hother

theorem onOneLine_hex4 (h : c < ' ') : OnOneLine (hex4 c.toNat) := by
  have hdigits : ∀ n < 32, (hex4 n).all (fun d => 32 ≤ d.toNat) = true := by decide
  simpa [OnOneLine] using hdigits c.toNat h

theorem onOneLine_escapeChar (hquote : 32 ≤ quote.toNat) (c : Char) :
    OnOneLine (escapeChar quote c) := by
  unfold escapeChar
  split_ifs with _ _ _ _ _ _ _ hcontrol
  all_goals simp [hquote]
  · exact onOneLine_hex4 hcontrol
  · exact Char.not_lt.1 hcontrol

theorem onOneLine_literal (hquote : 32 ≤ quote.toNat) (cs : List Char) :
    OnOneLine (literal quote cs) := by
  have hchars : OnOneLine (cs.flatMap (escapeChar quote)) :=
    .flatMap fun c _ => onOneLine_escapeChar hquote c
  simp [literal, hquote, hchars]

theorem onOneLine_strLiteral (s : String) : OnOneLine (strLiteral s) :=
  onOneLine_literal (by decide) s.toList

theorem onOneLine_decimalPadded (width n : Nat) : OnOneLine (decimalPadded width n) :=
  fun c hc => toNat_ge_of_isDigit (isDigit_of_mem_decimalPadded c hc)

theorem onOneLine_number (n : Number) : OnOneLine n.text := by
  have hvalue : OnOneLine n.value.text := by
    intro c hc
    rcases Double.mem_text hc with halphanum | rfl | rfl
    · exact toNat_ge_of_isAlphanum halphanum
    · decide
    · decide
  have hwellFormed := n.wellFormed
  unfold Number.text
  rw [OnOneLine.append_iff]
  refine ⟨hvalue, ?_⟩
  cases hunit : n.unit with
  | none => exact .nil
  | some unit =>
    intro c hc
    rcases (hwellFormed.unit unit hunit).chars c hc with hletter | hmark | hwide
    · exact toNat_ge_of_isAlphanum (letterOrDigit_iff.1 (.inl hletter))
    · exact (by simp : OnOneLine ['%', '_', '/', '$', '-', '*']) c hmark
    · omega

theorem onOneLine_ref (r : Ref) : OnOneLine (Value.ref r).zinc := by
  have hid := onOneLine_of_chars (by simp) (isRefId_iff.1 r.valid).chars
  cases hdis : r.dis with
  | none => simp [Value.zinc, hdis, hid]
  | some dis => simp [Value.zinc, hdis, hid, onOneLine_strLiteral dis]

theorem onOneLine_date (d : Date) : OnOneLine d.text := by
  simp [Date.text, onOneLine_decimalPadded]

theorem onOneLine_time (t : TimeOfDay) : OnOneLine t.text := by
  unfold TimeOfDay.text
  split <;> simp [onOneLine_decimalPadded]

theorem onOneLine_dateTime (t : Timestamp) : OnOneLine t.text := by
  have hoffset : OnOneLine (Timestamp.offsetText t.offset) := by
    unfold Timestamp.offsetText
    split_ifs <;> simp [onOneLine_decimalPadded]
  have hzone : OnOneLine t.zone.name.toList := by
    obtain ⟨c, cs, hname, -, hchars⟩ := t.zone.exists_name_cons
    rw [hname]
    apply onOneLine_of_chars (by simp : OnOneLine ['_', '-', '+'])
    intro d hd
    have hd := hchars d hd
    simp only [Zone.isNameChar, Bool.or_eq_true, beq_iff_eq, ← letterOrDigit_iff, or_assoc] at hd
    simpa using hd
  simp [Timestamp.text, onOneLine_date, onOneLine_time, hoffset, hzone]

theorem onOneLine_mime (m : MediaType) : OnOneLine m.mime.toList :=
  fun c hc => ((isMediaText_iff.1 m.valid).chars c hc).2.2

theorem onOneLine_coord (coord : Coord) : OnOneLine coord.text := by
  have hmicro (micro : Int) : OnOneLine (Coord.microText micro) := by
    intro c hc
    rcases Coord.mem_microText hc with hdigit | rfl | rfl
    · exact toNat_ge_of_isDigit hdigit
    · decide
    · decide
  simp [Coord.text, Coord.pairText, hmicro]

theorem onOneLine_symbol (s : Symbol) : OnOneLine s.name.toList :=
  onOneLine_of_chars (by simp) (isSymbolName_iff.1 s.valid).chars

theorem onOneLine_typeName (t : TypedText) : OnOneLine t.typeName.toList := by
  obtain ⟨c, cs, hname, -, hchars⟩ := t.exists_typeName_cons
  rw [hname]
  apply onOneLine_of_chars (by simp : OnOneLine ['_'])
  simpa [isNameChar_iff] using hchars

mutual

theorem onOneLine_zinc (v : Value) : OnOneLine v.zinc := by
  cases v with
  | marker | remove | na => simp [Value.zinc]
  | bool b => cases b <;> simp [Value.zinc]
  | number n => exact onOneLine_number n
  | str s => exact onOneLine_strLiteral s
  | uri s => exact onOneLine_literal (by decide) s.toList
  | ref r => exact onOneLine_ref r
  | date d => exact onOneLine_date d
  | time t => exact onOneLine_time t
  | dateTime t => exact onOneLine_dateTime t
  | bin m => simp [Value.zinc, onOneLine_strLiteral]
  | coord c => exact onOneLine_coord c
  | symbol s => simp [Value.zinc, onOneLine_symbol]
  | list items => simp [Value.zinc, onOneLine_zincItems items]
  | typed t => simp [Value.zinc, onOneLine_typeName, onOneLine_strLiteral]
termination_by sizeOf v

theorem onOneLine_zincItems (items : List Value) : OnOneLine (Value.zincItems items) := by
  cases items with
  | nil => exact .nil
  | cons v items =>
    cases items with
    | nil => exact onOneLine_zinc v
    | cons w items =>
      simp [Value.zincItems, onOneLine_zinc v, onOneLine_zincItems (w :: items)]
termination_by sizeOf items

end

theorem onOneLine_textIn (version : Version) (v : Value) : OnOneLine (textIn version v) := by
  unfold textIn
  split
  · simp [onOneLine_mime]
  · exact onOneLine_zinc v

/-! ## Lines of grids -/

theorem onOneLine_name (n : TagName) : OnOneLine n.text.toList := by
  obtain ⟨c, cs, hname, -, hchars⟩ := n.exists_cons
  rw [hname]
  apply onOneLine_of_chars (by simp : OnOneLine ['_'])
  simpa [isNameChar_iff] using hchars

theorem onOneLine_tagText (version : Version) (name : TagName) (v : Value) :
    OnOneLine (tagText version name v) := by
  unfold tagText
  split
  · exact onOneLine_name name
  · simp [onOneLine_name, onOneLine_textIn]

theorem onOneLine_tagsText (version : Version) (entries : List (TagName × Value)) :
    OnOneLine (tagsText version entries) :=
  .flatMap fun e _ => OnOneLine.cons_iff.2 ⟨by decide, onOneLine_tagText version e.1 e.2⟩

theorem onOneLine_cellText (version : Version) (cell : Option Value) :
    OnOneLine (cellText version cell) := by
  cases cell with
  | none => exact .nil
  | some v => exact onOneLine_textIn version v

theorem onOneLine_rowPieces (version : Version) (cells : List (Option Value)) :
    ∀ piece ∈ rowPieces version cells, OnOneLine piece := by
  unfold rowPieces
  split
  · simp
  · rintro piece hpiece
    obtain ⟨cell, -, rfl⟩ := List.mem_map.1 hpiece
    exact onOneLine_cellText version cell

/-- No line of a grid is empty, and each stays on its line. -/
theorem gridLines_spec (version : Version) (g : Grid) :
    ∀ line ∈ (gridLines version g).map (joined ','), line ≠ [] ∧ OnOneLine line := by
  have hheader : OnOneLine (headerText version g) := by
    simp [headerText, onOneLine_strLiteral, onOneLine_tagsText]
  have hcolumns : joined ',' (g.columns.map (columnText version)) ≠ [] ∧
      OnOneLine (joined ',' (g.columns.map (columnText version))) := by
    constructor
    · obtain ⟨c, columns, hcolumns⟩ := List.exists_cons_of_ne_nil g.nonempty
      obtain ⟨d, cs, hname, -⟩ := c.name.exists_cons
      cases columns <;> simp [hcolumns, columnText, hname, joined]
    · apply OnOneLine.joined (by decide)
      simp [columnText, onOneLine_name, onOneLine_tagsText]
  have hrows : ∀ cells ∈ g.rows, joined ',' (rowPieces version cells) ≠ [] ∧
      OnOneLine (joined ',' (rowPieces version cells)) := by
    intro cells hcells
    have hne : cells ≠ [] := by
      rintro rfl
      exact g.nonempty (List.length_eq_zero_iff.1 (g.rectangular [] hcells).symm)
    have hstart : StartsLine (joined ',' (rowPieces version cells)) :=
      startsLine_rowPieces (lineOf_joined (rowPieces_ne_nil hne))
    obtain ⟨c, cs, hcs, -⟩ := hstart
    exact ⟨by simp [hcs], .joined (by decide) (onOneLine_rowPieces version cells)⟩
  have hne : headerText version g ≠ [] := by simp [headerText]
  simpa [gridLines, joined, hheader, hcolumns, hne] using hrows

/-! ## Texts of lines -/

section

variable {lines : List (List Char)}

theorem count_newline_lines (h : ∀ line ∈ lines, OnOneLine line) :
    (lines.flatMap (· ++ ['\n'])).count '\n' = lines.length := by
  induction lines with
  | nil => rfl
  | cons line lines ih =>
    obtain ⟨hline, hlines⟩ := List.forall_mem_cons.1 h
    simp [ih hlines, List.count_eq_zero.2 hline.newline_not_mem]

theorem splitOn_lines (h : ∀ line ∈ lines, OnOneLine line) :
    (lines.flatMap (· ++ ['\n'])).splitOn '\n' = lines ++ [[]] := by
  induction lines with
  | nil => rfl
  | cons line lines ih =>
    obtain ⟨hline, hlines⟩ := List.forall_mem_cons.1 h
    simp [List.splitOn_append_cons_self_of_not_mem hline.newline_not_mem, ih hlines]

/-- A text of so many lines, each with a line feed at its end and something before that, and
without other control characters. -/
structure LineText (count : Nat) (text : List Char) : Prop where
  newlines : text.count '\n' = count
  ending : text.getLast? = some '\n'
  noEmptyLine : ∀ line ∈ (text.splitOn '\n').dropLast, line ≠ []
  controls : ∀ c ∈ text, c.toNat < 32 → c = '\n'

theorem lineText_lines (hne : lines ≠ []) (h : ∀ line ∈ lines, line ≠ [] ∧ OnOneLine line) :
    LineText lines.length (lines.flatMap (· ++ ['\n'])) where
  newlines := count_newline_lines fun line hline => (h line hline).2
  ending := by
    obtain ⟨before, line, rfl⟩ := (List.eq_nil_or_concat' lines).resolve_left hne
    simp
  noEmptyLine := by
    rw [splitOn_lines fun line hline => (h line hline).2, List.dropLast_concat]
    exact fun line hline => (h line hline).1
  controls := by
    intro c hc hcontrol
    obtain ⟨line, hline, hc⟩ := List.mem_flatMap.1 hc
    rcases List.mem_append.1 hc with hc | hc
    · exact absurd hcontrol (Nat.not_lt.2 ((h line hline).2 c hc))
    · exact List.mem_singleton.1 hc

end

theorem lineText_gridText (version : Version) (g : Grid) :
    LineText (g.rows.length + 2) (gridText version g) := by
  have hlines := lineText_lines (by simp [gridLines]) (gridLines_spec version g)
  rw [← gridText_eq] at hlines
  simpa [gridLines] using hlines

/-! ## Failures -/

namespace Written

variable {a b : Written} {pieces : List Written} {e : Error}

theorem failure_of_append (h : e ∈ (a ++ b).failure) : e ∈ a.failure ∨ e ∈ b.failure := by
  change e ∈ (append a b).failure at h
  unfold append at h
  cases ha : a.failure with
  | none => exact .inr (by simpa [ha] using h)
  | some e' => exact .inl (by simpa [ha] using h)

theorem failure_ofText_append (text : List Char) (b : Written) :
    (ofText text ++ b).failure = b.failure := rfl

theorem failure_append_ofText (a : Written) (text : List Char) :
    (a ++ ofText text).failure = a.failure := by
  change (append a (ofText text)).failure = a.failure
  unfold append
  cases ha : a.failure with
  | none => rfl
  | some e => rfl

theorem failure_of_concat (h : e ∈ (concat pieces).failure) : ∃ w ∈ pieces, e ∈ w.failure := by
  induction pieces with
  | nil => cases h
  | cons w pieces ih =>
    have h : e ∈ (w ++ concat pieces).failure := h
    rcases failure_of_append h with hw | hpieces
    · exact ⟨w, List.mem_cons_self, hw⟩
    · obtain ⟨u, hu, hfailure⟩ := ih hpieces
      exact ⟨u, List.mem_cons_of_mem _ hu, hfailure⟩

theorem failure_of_separated {separator : Char} (h : e ∈ (separated separator pieces).failure) :
    ∃ w ∈ pieces, e ∈ w.failure := by
  induction pieces with
  | nil => cases h
  | cons w pieces ih =>
    cases pieces with
    | nil => exact ⟨w, List.mem_cons_self, h⟩
    | cons u pieces =>
      have h : e ∈ (w ++ ofText [separator] ++ separated separator (u :: pieces)).failure := h
      rcases failure_of_append h with hfirst | hothers
      · rw [failure_append_ofText] at hfirst
        exact ⟨w, List.mem_cons_self, hfirst⟩
      · obtain ⟨u', hu', hfailure⟩ := ih hothers
        exact ⟨u', List.mem_cons_of_mem _ hu', hfailure⟩

end Written

end Zinc

/-- The values of a grid: those of its tags, of the tags of its columns, and of its cells. -/
inductive Grid.Holds (g : Grid) : Value → Prop where
  | tag {name : TagName} {v : Value} : (name, v) ∈ g.tags.entries → Holds g v
  | columnTag {c : Column} {name : TagName} {v : Value} :
      c ∈ g.columns → (name, v) ∈ c.tags.entries → Holds g v
  | cell {cells : List (Option Value)} {v : Value} : cells ∈ g.rows → some v ∈ cells → Holds g v

theorem Grid.everyValue_iff_holds {g : Grid} {p : Value → Bool} :
    g.everyValue p = true ↔ ∀ v, g.Holds v → p v = true := by
  rw [everyValue_iff]
  constructor
  · rintro ⟨htags, hcolumns, hcells⟩ v hv
    cases hv with
    | tag hmem => exact htags _ hmem
    | columnTag hc hmem => exact hcolumns _ hc _ hmem
    | cell hrow hmem => exact hcells _ hrow _ hmem v rfl
  · intro h
    refine ⟨fun e he => h _ (.tag he), fun c hc e he => h _ (.columnTag hc he), ?_⟩
    rintro cells hrow _ hmem v rfl
    exact h v (.cell hrow hmem)

namespace Zinc

open Text Written

variable {version : Version} {v : Value} {g : Grid} {e : Error}

theorem hasText_eq_false_iff : hasText version v = false ↔
    version = .v2 ∧ (v.kind = .symbol ∨ v.kind = .list ∨ v.kind = .typed) := by
  unfold hasText
  cases version with
  | v3 => simp [Version.supports]
  | v2 => cases v.kind <;> simp [Version.supports]

theorem failure_of_writeValue (h : e ∈ (writeValue version v).failure) :
    hasText version v = false ∧
      e = .unsupportedType (v.kind.name ++ " cannot be written as Zinc 2.0") := by
  cases htext : hasText version v with
  | true =>
    rw [writeValue_eq htext] at h
    cases h
  | false =>
    have hsupports : version.supports v.kind ≠ true := Bool.eq_false_iff.1 htext
    unfold writeValue Value.zincIn? at h
    rw [if_neg hsupports] at h
    exact ⟨rfl, (Option.some.inj h).symm⟩

theorem failure_of_writeTag {name : TagName} (h : e ∈ (writeTag version name v).failure) :
    e ∈ (writeValue version v).failure := by
  cases v with
  | marker => cases h
  | _ => exact h

theorem failure_of_writeTags {d : Dict} (h : e ∈ (writeTags version d).failure) :
    ∃ entry ∈ d.entries, e ∈ (writeValue version entry.2).failure := by
  obtain ⟨w, hw, hfailure⟩ := failure_of_concat h
  obtain ⟨entry, hentry, rfl⟩ := List.mem_map.1 hw
  rw [failure_ofText_append] at hfailure
  exact ⟨entry, hentry, failure_of_writeTag hfailure⟩

theorem failure_of_writeRow {cells : List (Option Value)}
    (h : e ∈ (writeRow version cells).failure) :
    ∃ v, some v ∈ cells ∧ e ∈ (writeValue version v).failure := by
  rw [writeRow, failure_append_ofText] at h
  split at h
  · cases h
  · obtain ⟨w, hw, hfailure⟩ := failure_of_separated h
    obtain ⟨cell, hcell, rfl⟩ := List.mem_map.1 hw
    cases cell with
    | none => cases hfailure
    | some v => exact ⟨v, hcell, hfailure⟩

/-- Writing a grid fails at one of its values. -/
theorem failure_of_writeGrid (h : e ∈ (writeGrid version g).failure) :
    ∃ v, g.Holds v ∧ e ∈ (writeValue version v).failure := by
  rcases failure_of_append h with hlines | hrows
  · rw [failure_append_ofText] at hlines
    rcases failure_of_append hlines with hheader | hcolumns
    · rw [failure_append_ofText, failure_ofText_append] at hheader
      obtain ⟨entry, hentry, hfailure⟩ := failure_of_writeTags hheader
      exact ⟨entry.2, .tag hentry, hfailure⟩
    · obtain ⟨w, hw, hfailure⟩ := failure_of_separated hcolumns
      obtain ⟨c, hc, rfl⟩ := List.mem_map.1 hw
      rw [writeColumn, failure_ofText_append] at hfailure
      obtain ⟨entry, hentry, hfailure⟩ := failure_of_writeTags hfailure
      exact ⟨entry.2, .columnTag hc hentry, hfailure⟩
  · obtain ⟨w, hw, hfailure⟩ := failure_of_concat hrows
    obtain ⟨cells, hcells, rfl⟩ := List.mem_map.1 hw
    obtain ⟨v, hv, hfailure⟩ := failure_of_writeRow hfailure
    exact ⟨v, .cell hcells hv, hfailure⟩

/-- A grid is not written in full if a version has no text for one of its values. -/
theorem exists_failure_writeGrid : (∃ e, (writeGrid version g).failure = some e) ↔
    version = .v2 ∧ ∃ v, g.Holds v ∧ (v.kind = .symbol ∨ v.kind = .list ∨ v.kind = .typed) := by
  rw [← Option.ne_none_iff_exists', Ne, failure_writeGrid, Grid.everyValue_iff_holds]
  simp only [not_forall, Bool.not_eq_true, hasText_eq_false_iff, exists_prop]
  constructor
  · rintro ⟨v, hv, hversion, hkind⟩
    exact ⟨hversion, v, hv, hkind⟩
  · rintro ⟨hversion, v, hv, hkind⟩
    exact ⟨v, hv, hversion, hkind⟩

namespace Writer

variable {w : Writer} {piece : Written}

theorem push_fst_eq_error_iff : (w.push piece).1 = .error e ↔ piece.failure = some e := by
  unfold push toResult
  cases piece.failure with
  | none => simp [Except.map]
  | some e' => simp [Except.map]

theorem push_fst_eq_ok_iff : (w.push piece).1 = .ok () ↔ piece.failure = none := by
  unfold push toResult
  cases piece.failure with
  | none => simp [Except.map]
  | some e => simp [Except.map]

end Writer

/-- A writer fails to write a grid exactly in version 2, if the grid holds a symbol, a list or a
typed text, and then the error names the kind of one of these. What it writes in full is added
behind what was written before, and it is one line for the header, one for the columns and one
for each row. -/
theorem grid_is_refused_or_written_in_lines (w : Writer) (g : Grid) :
    ((∃ e, (w.grid g).1 = .error e) ↔
      w.version = .v2 ∧ ∃ v, g.Holds v ∧ (v.kind = .symbol ∨ v.kind = .list ∨ v.kind = .typed)) ∧
    (∀ e, (w.grid g).1 = .error e →
      ∃ v, g.Holds v ∧ (v.kind = .symbol ∨ v.kind = .list ∨ v.kind = .typed) ∧
        e = .unsupportedType (v.kind.name ++ " cannot be written as Zinc 2.0")) ∧
    ((w.grid g).1 = .ok () →
      ∃ text, (w.grid g).2 = { w with output := w.output ++ text } ∧
        LineText (g.rows.length + 2) text.toList) := by
  refine ⟨?_, ?_, ?_⟩
  · simp only [Writer.grid, Writer.push_fst_eq_error_iff, exists_failure_writeGrid]
  · intro e he
    obtain ⟨v, hv, hfailure⟩ := failure_of_writeGrid (Writer.push_fst_eq_error_iff.1 he)
    obtain ⟨htext, rfl⟩ := failure_of_writeValue hfailure
    exact ⟨v, hv, (hasText_eq_false_iff.1 htext).2, rfl⟩
  · intro hok
    have hall := failure_writeGrid.1 (Writer.push_fst_eq_ok_iff.1 hok)
    obtain ⟨htags, hcolumns, hcells⟩ := Grid.everyValue_iff.1 hall
    refine ⟨String.ofList (gridText w.version g), ?_, ?_⟩
    · unfold Writer.grid Writer.push
      rw [writeGrid_eq htags hcolumns hcells]
      rfl
    · rw [String.toList_ofList]
      exact lineText_gridText w.version g

/-- The tags of the sample hold a list. -/
theorem sample_is_refused_or_written_in_lines :
    (∃ e, ((Writer.new .v2).grid .sample).1 = .error e) ∧
      ∃ text, ((Writer.mk .v3 "earlier\n").grid .sample).2 = ⟨.v3, "earlier\n" ++ text⟩ ∧
        LineText 5 text.toList := by
  obtain ⟨hrefused, -, -⟩ := grid_is_refused_or_written_in_lines (.new .v2) .sample
  obtain ⟨-, -, hwritten⟩ := grid_is_refused_or_written_in_lines ⟨.v3, "earlier\n"⟩ .sample
  refine ⟨hrefused.2 ⟨rfl, .sample, ?_, .inr (.inl rfl)⟩, hwritten ?_⟩
  · exact .tag (List.mem_of_getElem? (i := 1) rfl)
  · exact Writer.push_fst_eq_ok_iff.2 (failure_writeGrid.2 (by decide))

end Zinc

end TagGrid
