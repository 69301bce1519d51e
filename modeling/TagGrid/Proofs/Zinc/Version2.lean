import TagGrid.Proofs.Reader.Sessions
import TagGrid.Proofs.Zinc.BareMediaTypes

/-! # Grids in version 2 of the format

A grid has a text in version 2 if it has no symbols, lists and typed texts. It comes back from
that text, unless one of its media types starts with a quote: then what is read, if anything,
is a grid of the same shape with another media type in that place.
-/

namespace TagGrid

/-- The values of a grid are those of its tags, of its columns and of its rows. -/
theorem Grid.everyValue_iff {g : Grid} {p : Value → Bool} :
    g.everyValue p = true ↔
      (∀ e ∈ g.tags.entries, p e.2 = true) ∧
        (∀ c ∈ g.columns, ∀ e ∈ c.tags.entries, p e.2 = true) ∧
        ∀ cells ∈ g.rows, ∀ cell ∈ cells, ∀ v, cell = some v → p v = true := by
  simp only [Grid.everyValue, Dict.everyValue, Bool.and_eq_true, List.all_eq_true, and_assoc,
    Option.all_eq_true]

namespace Value

/-- Whether the year of a value has at most four digits and its unit does not continue its
number. -/
def literalSafe (v : Value) : Bool := v.yearFits && v.number?.all Number.zincSafe

/-- Whether a value is not a media type that starts with a quote. -/
def bareSafe : Value → Bool
  | bin m => !m.startsWithQuote
  | _ => true

end Value

namespace Zinc

open Outcome Written

variable {version : Version}

/-! ## What is written in full -/

namespace Written

variable {a b : Written} {pieces : List Written}

@[simp] theorem failure_ofText (text : List Char) : (ofText text).failure = none := rfl

@[simp] theorem failure_append :
    (a ++ b).failure = none ↔ a.failure = none ∧ b.failure = none := by
  show (append a b).failure = none ↔ _
  unfold append
  cases a.failure with
  | none => simp
  | some e => simp

@[simp] theorem failure_concat :
    (concat pieces).failure = none ↔ ∀ w ∈ pieces, w.failure = none := by
  induction pieces with
  | nil => simp [concat]
  | cons w pieces ih =>
    show (w ++ concat pieces).failure = none ↔ _
    rw [failure_append, ih, List.forall_mem_cons]

@[simp] theorem failure_separated {separator : Char} :
    (separated separator pieces).failure = none ↔ ∀ w ∈ pieces, w.failure = none := by
  induction pieces with
  | nil => simp [separated]
  | cons w pieces ih =>
    cases pieces with
    | nil => simp [separated]
    | cons u pieces =>
      show (w ++ ofText [separator] ++ separated separator (u :: pieces)).failure = none ↔ _
      rw [failure_append, failure_append, ih, List.forall_mem_cons]
      simp

end Written

@[simp] theorem failure_writeValue {v : Value} :
    (writeValue version v).failure = none ↔ hasText version v = true := by
  constructor
  · intro h
    by_contra hnone
    have hsupports : ¬ version.supports v.kind = true := hnone
    unfold writeValue Value.zincIn? at h
    rw [if_neg hsupports] at h
    cases h
  · intro h
    rw [writeValue_eq h]
    rfl

@[simp] theorem failure_writeTag {name : TagName} {v : Value} :
    (writeTag version name v).failure = none ↔ hasText version v = true := by
  cases v with
  | marker => simp [writeTag, hasText, Version.supports, Value.kind]
  | _ => simp [writeTag]

@[simp] theorem failure_writeTags {d : Dict} :
    (writeTags version d).failure = none ↔ d.everyValue (hasText version) = true := by
  simp only [writeTags, failure_concat, List.forall_mem_map, failure_append, failure_ofText,
    true_and, failure_writeTag, Dict.everyValue, List.all_eq_true]

@[simp] theorem failure_writeCell {cell : Option Value} :
    (writeCell version cell).failure = none ↔ cell.all (hasText version) = true := by
  cases cell with
  | none => simp [writeCell]
  | some v => simp [writeCell]

@[simp] theorem failure_writeRow {cells : List (Option Value)} :
    (writeRow version cells).failure = none ↔
      cells.all (fun cell => cell.all (hasText version)) = true := by
  unfold writeRow
  split
  · rename_i hblank
    have hall : ∀ cell ∈ cells, cell.all (hasText version) = true := by
      intro cell hcell
      rw [Option.isNone_iff_eq_none.1 (List.all_eq_true.1 hblank cell hcell)]
      rfl
    simpa using hall
  · simp

/-- A grid is written in full if a version has a text for each of its values. -/
theorem failure_writeGrid {g : Grid} :
    (writeGrid version g).failure = none ↔ g.everyValue (hasText version) = true := by
  simp [writeGrid, writeColumn, Grid.everyValue, and_assoc]

theorem ofGrid?_eq_ok_iff {g : Grid} {text : String} :
    ofGrid? version g = .ok text ↔
      g.everyValue (hasText version) = true ∧ text = String.ofList (gridText version g) := by
  have hwritten (h : g.everyValue (hasText version) = true) :
      ofGrid? version g = .ok (String.ofList (gridText version g)) := by
    obtain ⟨htags, hcolumns, hcells⟩ := Grid.everyValue_iff.1 h
    unfold ofGrid?
    rw [writeGrid_eq htags hcolumns hcells]
    rfl
  constructor
  · intro h
    have hall : g.everyValue (hasText version) = true := by
      rw [← failure_writeGrid]
      unfold ofGrid? toResult at h
      cases hfailure : (writeGrid version g).failure with
      | none => rfl
      | some e =>
        rw [hfailure] at h
        cases h
    rw [hwritten hall] at h
    exact ⟨hall, (Except.ok.inj h).symm⟩
  · rintro ⟨hall, rfl⟩
    exact hwritten hall

/-! ## What is read back -/

/-- What a value with a text in version 2 lacks of the unsafe kinds. -/
theorem zincSafe_of_literalSafe {v : Value} (htext : hasText .v2 v = true)
    (hsafe : v.literalSafe = true) : v.zincSafe = true := by
  cases v with
  | symbol | list | typed => cases htext
  | number n => exact hsafe
  | date d => exact hsafe
  | dateTime t => exact hsafe
  | _ => rfl

theorem readsBack_v2 {v : Value} (htext : hasText .v2 v = true) (hsafe : v.literalSafe = true)
    (hbare : v.bareSafe = true) : ReadsBack (textIn .v2 v) v := by
  cases v with
  | bin m => exact readsBack_bare (by simpa [Value.bareSafe] using hbare)
  | _ => exact readsBack_zinc _ (zincSafe_of_literalSafe htext hsafe)

theorem readsOnly_v2 {v : Value} (htext : hasText .v2 v = true) (hsafe : v.literalSafe = true) :
    ReadsOnly (fun w => w.same v = true → v.bareSafe = true) (textIn .v2 v) := by
  cases hbare : v.bareSafe with
  | true => exact (readsBack_v2 htext hsafe hbare).readsOnly fun _ => rfl
  | false =>
    cases v with
    | bin m =>
      have hquote : m.startsWithQuote = true := by simpa [Value.bareSafe] using hbare
      refine (readsOnly_bare hquote).mono fun w hw hsame => ?_
      rw [hw] at hsame
      cases hsame
    | _ => cases hbare

variable {g : Grid} {text : String}

/-- A grid without quotes at the start of media types comes back field by field. -/
theorem toGrid?_v2 (hsafe : g.everyValue Value.literalSafe = true)
    (htext : ofGrid? .v2 g = .ok text) (hbare : g.everyValue Value.bareSafe = true) :
    toGrid? text = .ok g := by
  obtain ⟨hwritten, rfl⟩ := ofGrid?_eq_ok_iff.1 htext
  obtain ⟨htags, hcolumns, hcells⟩ := Grid.everyValue_iff.1 hsafe
  obtain ⟨htags', hcolumns', hcells'⟩ := Grid.everyValue_iff.1 hwritten
  obtain ⟨htags'', hcolumns'', hcells''⟩ := Grid.everyValue_iff.1 hbare
  apply toGrid?_gridText
  · intro e he
    exact readsBack_v2 (htags' e he) (htags e he) (htags'' e he)
  · intro c hc e he
    exact readsBack_v2 (hcolumns' c hc e he) (hcolumns c hc e he) (hcolumns'' c hc e he)
  · intro cells hmem x hx v hv
    exact readsBack_v2 (hcells' cells hmem x hx v hv) (hcells cells hmem x hx v hv)
      (hcells'' cells hmem x hx v hv)

/-- A grid that is read and equals the written one shows that no media type starts with a
quote. -/
theorem bareSafe_of_toGrid?_v2 (hsafe : g.everyValue Value.literalSafe = true)
    (htext : ofGrid? .v2 g = .ok text) {g' : Grid} (hgrid : toGrid? text = .ok g')
    (hsame : g'.same g = true) : g.everyValue Value.bareSafe = true := by
  obtain ⟨hwritten, rfl⟩ := ofGrid?_eq_ok_iff.1 htext
  obtain ⟨htags, hcolumns, hcells⟩ := Grid.everyValue_iff.1 hsafe
  obtain ⟨htags', hcolumns', hcells'⟩ := Grid.everyValue_iff.1 hwritten
  have hlaid := laidOut_gridText .v2 g []
  rw [List.append_nil] at hlaid
  have hleaves : Leaves [] (Grid.Related (fun w v => w.same v = true → v.bareSafe = true) · g)
      (readGrid .data (gridText .v2 g)) := by
    apply leaves_readGrid _ _ _ hlaid
    · intro e he
      exact readsOnly_v2 (htags' e he) (htags e he)
    · intro c hc e he
      exact readsOnly_v2 (hcolumns' c hc e he) (hcolumns c hc e he)
    · intro cells hmem x hx v hv
      exact readsOnly_v2 (hcells' cells hmem x hx v hv) (hcells cells hmem x hx v hv)
  obtain ⟨rest, hread⟩ := Reader.exists_of_run_eq_ok hgrid
  have hchars : (Reader.ofText (String.ofList (gridText .v2 g))).rest = gridText .v2 g :=
    String.toList_ofList
  rw [hchars] at hread
  obtain ⟨-, hrelated⟩ := hleaves.of_ok hread
  exact (hrelated.of_same hsame).everyValue fun w v hwv => hwv.1 hwv.2

theorem skipBlanks_textIn (v : Value) : skipBlanks (textIn version v) = textIn version v := by
  obtain ⟨c, cs, hcs, hc⟩ := exists_textIn_cons version v
  rw [hcs]
  exact skipBlanks_cons _ (startsValue_spec hc).2.1

theorem toValue?_bare_iff (m : MediaType) :
    toValue? (String.ofList (textIn .v2 (.bin m))) = .ok (some (.bin m)) ↔
      m.startsWithQuote = false := by
  constructor
  · intro h
    cases hquote : m.startsWithQuote with
    | false => rfl
    | true =>
      obtain ⟨rest, hread⟩ := Reader.exists_readValue_of_scalar h
      have hchars : skipBlanks (Reader.ofText (String.ofList (textIn .v2 (.bin m)))).rest =
          textIn .v2 (.bin m) ++ [] := by
        show skipBlanks (String.ofList (textIn .v2 (.bin m))).toList = _
        rw [String.toList_ofList, skipBlanks_textIn, List.append_nil]
      rw [hchars] at hread
      obtain ⟨-, w, hw, hne⟩ := (readsOnly_bare hquote .data [] Follows.nil).of_ok hread
      obtain rfl := Option.some.inj hw
      rw [Value.same_refl] at hne
      cases hne
  · intro hbare
    apply toValue?_of_readValue (skipBlanks_textIn _)
    have hread := readsBack_bare hbare .data [] Follows.nil
    rwa [List.append_nil] at hread

/-- Which grids come back from their text in version 2 as equal grids, and which media types
come back from theirs. -/
theorem version2_reads_back_iff (g : Grid) (text : String)
    (hsafe : g.everyValue Value.literalSafe = true) (htext : ofGrid? .v2 g = .ok text) :
    ((∃ g', toGrid? text = .ok g' ∧ g'.same g = true) ↔ g.everyValue Value.bareSafe = true) ∧
      ∀ (mime : String) (m : MediaType), MediaType.ofText? mime = .ok m →
        ∃ bare, ofValue? .v2 (.bin m) = .ok bare ∧
          (toValue? bare = .ok (some (.bin m)) ↔ ¬ ['"'] <+: mime.toList) := by
  refine ⟨⟨?_, ?_⟩, ?_⟩
  · rintro ⟨g', hgrid, hsame⟩
    exact bareSafe_of_toGrid?_v2 hsafe htext hgrid hsame
  · intro hbare
    exact ⟨g, toGrid?_v2 hsafe htext hbare, g.same_refl⟩
  · intro mime m hm
    refine ⟨_, rfl, ?_⟩
    rw [← MediaType.mime_of_ofText? hm, ← List.isPrefixOf_iff_prefix, Bool.not_eq_true]
    exact toValue?_bare_iff m

/-- A media type with quotes inside it, tags for the grid and for a column, and values whose
texts are easily mistaken. -/
def sampleV2 : Grid where
  tags := Dict.empty.set ⟨"mime", by decide⟩ (.bin ⟨"text/plain; charset=\"a\"", by decide⟩)
  columns :=
    [⟨⟨"part", by decide⟩, .empty⟩,
     ⟨⟨"size", by decide⟩, Dict.empty.set ⟨"sum", by decide⟩ .marker⟩]
  rows :=
    [[none, none],
     [some (.ref ⟨"p.1", some ", \"b\"", by decide⟩),
      some (.number ⟨.zero true, some "xB", by rintro u hu; cases hu; exact ⟨by decide, rfl⟩⟩)]]
  nonempty := by simp
  distinct := by decide
  rectangular := by simp

theorem sampleV2_reads_back :
    (sampleV2.everyValue Value.literalSafe = true ∧
      ∃ text, ofGrid? .v2 sampleV2 = .ok text ∧
        ∃ g', toGrid? text = .ok g' ∧ g'.same sampleV2 = true) ∧
    ∃ m, MediaType.ofText? "a/b; c=\"d\"" = .ok m ∧
      ∃ bare, ofValue? .v2 (.bin m) = .ok bare ∧ toValue? bare = .ok (some (.bin m)) := by
  have hsafe : sampleV2.everyValue Value.literalSafe = true := by decide
  have htext : ofGrid? .v2 sampleV2 = .ok (String.ofList (gridText .v2 sampleV2)) :=
    ofGrid?_eq_ok_iff.2 ⟨by decide, rfl⟩
  have hm : MediaType.ofText? "a/b; c=\"d\"" = .ok ⟨"a/b; c=\"d\"", by decide⟩ := rfl
  obtain ⟨hgrid, hmime⟩ := version2_reads_back_iff sampleV2 _ hsafe htext
  obtain ⟨bare, hbin, hread⟩ := hmime _ _ hm
  exact ⟨⟨hsafe, _, htext, hgrid.2 (by decide)⟩, _, hm, bare, hbin, hread.2 (by decide)⟩

/-- A grid whose one cell is a media type in quotes. -/
def quotedMime : Grid where
  tags := .empty
  columns := [⟨⟨"file", by decide⟩, .empty⟩]
  rows := [[some (.bin ⟨"\"text/plain\"", by decide⟩)]]
  nonempty := by simp
  distinct := by decide
  rectangular := by simp

/-- The quotes around such a media type are taken for those of the format. -/
theorem quotedMime_is_lost :
    quotedMime.everyValue Value.literalSafe = true ∧
      (∃ text, ofGrid? .v2 quotedMime = .ok text ∧
        ¬ ∃ g', toGrid? text = .ok g' ∧ g'.same quotedMime = true) ∧
      ofValue? .v2 (.bin ⟨"\"text/plain\"", by decide⟩) = .ok "Bin(\"text/plain\")" ∧
      toValue? "Bin(\"text/plain\")" = .ok (some (.bin ⟨"text/plain", by decide⟩)) := by
  have hsafe : quotedMime.everyValue Value.literalSafe = true := by decide
  have htext : ofGrid? .v2 quotedMime = .ok (String.ofList (gridText .v2 quotedMime)) :=
    ofGrid?_eq_ok_iff.2 ⟨by decide, rfl⟩
  refine ⟨hsafe, ⟨_, htext, ?_⟩, rfl, ?_⟩
  · rintro ⟨g', hgrid, hsame⟩
    exact absurd (bareSafe_of_toGrid?_v2 hsafe htext hgrid hsame) (by decide)
  · have hread := toValue?_toZinc (v := .bin ⟨"text/plain", by decide⟩) rfl
    exact hread

end Zinc

end TagGrid
