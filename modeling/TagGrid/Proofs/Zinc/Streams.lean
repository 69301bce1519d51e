import TagGrid.Proofs.Reader.Sessions
import TagGrid.Proofs.Zinc.Grids

/-! # Streams of grids

Grids can stand one after another in a text, with blank lines between them. The first blank
line ends the grid before it, and the others are skipped in front of the next one. Each grid
that is read therefore leaves a stream of the grids behind it, apart from blanks.
-/

namespace TagGrid

namespace Zinc

open Text Outcome

variable {version : Version} {g : Grid} {gs : List Grid} {cs tail rest text : List Char}

/-- Grids one after another, each in a layout of its own, with blank lines between them, at
least one each time. A blank line is empty; a line of spaces would be a row. -/
inductive Stream (version : Version) : List Grid → List Char → Prop where
  | nil : Stream version [] []
  | last {g : Grid} {text : List Char} (hgrid : LaidOut version g [] text) :
      Stream version [g] text
  | blank {g h : Grid} {gs : List Grid} {behind rest text : List Char} (more : Nat)
      (hgrid : LaidOut version g behind text)
      (hblank : Ended (List.replicate (more + 1) []) rest behind)
      (hrest : Stream version (h :: gs) rest) : Stream version (g :: h :: gs) text

/-- Texts one after another with empty lines between them, at least one each time. -/
inductive BlankSeparated : List String → String → Prop where
  | nil : BlankSeparated [] ""
  | last (text : String) : BlankSeparated [text] text
  | blank {text next joined : String} {texts : List String} (more : Nat)
      (hrest : BlankSeparated (next :: texts) joined) :
      BlankSeparated (text :: next :: texts)
        (text ++ String.ofList (List.replicate (more + 1) '\n') ++ joined)

/-- The texts of the writer with empty lines between them are a stream. -/
theorem stream_of_blankSeparated {texts : List String} {joined : String}
    (hjoined : BlankSeparated texts joined)
    (htexts : texts.map String.toList = gs.map (gridText version)) :
    Stream version gs joined.toList := by
  induction hjoined generalizing gs with
  | nil =>
    obtain rfl : gs = [] := by simpa using htexts
    exact .nil
  | last text =>
    obtain ⟨g, rfl, htext⟩ : ∃ g, gs = [g] ∧ gridText version g = text.toList := by
      simpa [eq_comm (a := [text.toList]), List.map_eq_singleton_iff] using htexts
    rw [← htext, ← List.append_nil (gridText version g)]
    exact .last (laidOut_gridText version g [])
  | @blank text next joined texts more hrest ih =>
    match gs, htexts with
    | [], htexts => simp at htexts
    | [g], htexts => simp at htexts
    | g :: h :: gs, htexts =>
      simp only [List.map_cons, List.cons.injEq] at htexts
      obtain ⟨htext, hothers⟩ := htexts
      have hblank := ended_newlines (List.replicate (more + 1) []) joined.toList
      have hnewlines : (List.replicate (more + 1) []).flatMap (· ++ ['\n']) =
          List.replicate (more + 1) '\n' := by
        simp [List.flatMap_replicate]
      rw [hnewlines] at hblank
      rw [String.toList_append, String.toList_append, String.toList_ofList, List.append_assoc,
        htext]
      exact .blank more (laidOut_gridText version g _) hblank (ih (by simpa using hothers))

/-! ## One grid -/

theorem readRows_endsLine (h : EndsLine tail rest) (draft : GridDraft) :
    readRows .data draft tail = ok draft rest := by
  rw [readRows.eq_def]
  cases h <;> rfl

theorem skipBlanks_endsLine (h : EndsLine tail rest) : skipBlanks tail = skipBlanks rest := by
  cases h <;> rfl

theorem skipBlanks_blankLines {blanks : Nat} (h : Ended (List.replicate blanks []) rest text) :
    skipBlanks text = skipBlanks rest := by
  induction blanks generalizing text with
  | zero =>
    cases h
    rfl
  | succ blanks ih =>
    obtain ⟨tail, text', rfl, htail, hended⟩ := h.uncons
    rw [skipBlanks_endsLine htail]
    exact ih hended

theorem readGrid_skipBlanks (setting : Setting) (cs : List Char) :
    readGrid setting (skipBlanks cs) = readGrid setting cs := by
  unfold readGrid readHeader
  rw [skipBlanks_skipBlanks]

/-- A grid with safe values is read in any layout, and then what is behind its rows. -/
theorem readGrid_through_safe (hsafe : g.everyValue Value.zincSafe = true)
    (hlaid : LaidOut .v3 g rest text) :
    ∃ draft, draft.columns = g.columns ∧ draft.build? = .ok g ∧
      readGrid .data text =
        (readRows .data draft rest).bind fun draft rest => pass rest draft.build? := by
  simp only [Grid.everyValue, Bool.and_eq_true, List.all_eq_true] at hsafe
  obtain ⟨⟨htags, hcolumns⟩, hcells⟩ := hsafe
  apply readGrid_through (readsBack_of_everyValue htags) _ _ hlaid
  · intro c hc
    exact readsBack_of_everyValue (hcolumns c hc)
  · rintro cells hmem x hx v rfl
    exact readsBack_zinc v (hcells cells hmem _ hx)

theorem readGrid_safe (hsafe : g.everyValue Value.zincSafe = true)
    (hlaid : LaidOut .v3 g rest text) {rest' : List Char}
    (hend : ∀ draft, readRows .data draft rest = ok draft rest') :
    readGrid .data text = ok g rest' := by
  obtain ⟨draft, -, hbuild, hread⟩ := readGrid_through_safe hsafe hlaid
  rw [hread, hend, bind_ok, hbuild, pass_ok]

/-- The unread text is a stream of these grids, apart from blanks in front of it. -/
def Unread (gs : List Grid) (cs : List Char) : Prop :=
  ∃ text, Stream .v3 gs text ∧ skipBlanks cs = skipBlanks text

/-- A step through a stream: the first grid is read, and the others are still unread. -/
theorem Unread.step (h : Unread (g :: gs) cs) (hsafe : g.everyValue Value.zincSafe = true) :
    ∃ rest, readGrid .data cs = ok g rest ∧ Unread gs rest := by
  obtain ⟨text, hstream, hskip⟩ := h
  rw [← readGrid_skipBlanks, hskip, readGrid_skipBlanks]
  cases hstream with
  | last hgrid => exact ⟨[], readGrid_safe hsafe hgrid readRows_nil, [], .nil, rfl⟩
  | blank more hgrid hblank hrest =>
    obtain ⟨tail, rest, rfl, htail, hended⟩ := hblank.uncons
    exact ⟨rest, readGrid_safe hsafe hgrid (readRows_endsLine htail), _, hrest,
      skipBlanks_blankLines hended⟩

/-! ## All grids -/

theorem Unread.readGrids (h : Unread gs cs)
    (hsafe : ∀ g ∈ gs, g.everyValue Value.zincSafe = true) :
    readGrids .data cs = ok gs [] := by
  induction gs generalizing cs with
  | nil =>
    obtain ⟨text, hstream, hskip⟩ := h
    cases hstream
    rw [readGrids_eq, hskip]
    rfl
  | cons g gs ih =>
    obtain ⟨rest, hread, hrest⟩ := h.step (hsafe g List.mem_cons_self)
    have hothers := ih hrest fun g' hg' => hsafe g' (List.mem_cons_of_mem _ hg')
    rw [← readGrid_skipBlanks] at hread
    rw [readGrids_eq]
    cases hskip : skipBlanks cs with
    | nil =>
      -- A grid is never read from nothing.
      have hlength := advances_readGrid .data (skipBlanks cs) g rest hread
      rw [hskip] at hlength
      cases hlength
    | cons c start =>
      rw [hskip] at hread
      simp only [hread, bind_ok, hothers, map_ok]

end Zinc

open Zinc

/-- A reader that is asked for one grid after another brings the grids of a stream. -/
theorem Reader.grid_after {r : Reader} {gs : List Grid} (hsetting : r.setting = .data)
    (h : Unread gs r.rest) (hsafe : ∀ g ∈ gs, g.everyValue Value.zincSafe = true)
    (i : Nat) (hi : i < gs.length) :
    ((r.after (List.replicate i .grid)).ask .grid).1 = .ok gs[i] := by
  induction gs generalizing r i with
  | nil => simp at hi
  | cons g gs ih =>
    obtain ⟨rest, hread, hrest⟩ := h.step (hsafe g List.mem_cons_self)
    cases i with
    | zero =>
      show (r.run readGrid).1 = .ok g
      unfold run
      rw [hsetting, hread]
    | succ i =>
      have hnext : (r.run readGrid).2.rest = rest := by
        rw [run_rest, hsetting, hread]
        rfl
      have hothers := ih (r := (r.run readGrid).2) ((run_setting r readGrid).trans hsetting)
        (hnext ▸ hrest) (fun g' hg' => hsafe g' (List.mem_cons_of_mem _ hg')) i
        (by simpa using hi)
      exact hothers

namespace Zinc

/-- Grids with safe values come back from their texts with empty lines between them, and from
every other layout of the stream, all at once or one after another. -/
theorem streams_read_back (gs : List Grid)
    (hsafe : ∀ g ∈ gs, g.everyValue Value.zincSafe = true) :
    (∃ texts, gs.map (ofGrid? .v3) = texts.map .ok ∧
      ∀ text, BlankSeparated texts text → Stream .v3 gs text.toList) ∧
    ∀ text : String, Stream .v3 gs text.toList →
      (Reader.ofText text).grids.1 = .ok gs ∧
      ∀ i (hi : i < gs.length),
        (((Reader.ofText text).after (List.replicate i .grid)).ask .grid).1 = .ok gs[i] := by
  constructor
  · refine ⟨gs.map fun g => String.ofList (gridText .v3 g), ?_, ?_⟩
    · simp [ofGrid?_v3]
    · intro text htext
      exact stream_of_blankSeparated htext (by simp)
  · intro text htext
    have hunread : Unread gs (Reader.ofText text).rest := ⟨text.toList, htext, rfl⟩
    constructor
    · exact run_eq_ok [] (hunread.readGrids hsafe)
    · intro i hi
      exact Reader.grid_after rfl hunread hsafe i hi

/-- Two columns, and two rows of which the first is blank. -/
def twoRows : Grid where
  tags := Dict.empty.set ⟨"loc", by decide⟩ (.ref ⟨"a", none, by decide⟩)
  columns := [⟨⟨"x", by decide⟩, .empty⟩, ⟨⟨"y", by decide⟩, .empty⟩]
  rows := [[none, none], [none, some .marker]]
  nonempty := by simp
  distinct := by decide
  rectangular := by simp

/-- A grid with line ends of both kinds and gaps around its pieces, two blank lines, and the
grid again without gaps and without its last line end. -/
def looseText : String :=
  "ver:\"3.0\" loc:@a \t\r\n x\t, y\nN ,\t\r\n\t, M \n\n\r\nver:\"3.0\" loc:@a\nx,y\nN,\n,M"

theorem stream_looseText : Stream .v3 [twoRows, twoRows] looseText.toList := by
  have hheader : headerText .v3 twoRows = "ver:\"3.0\" loc:@a".toList := by decide
  have hloose (rest : List Char) : LaidOut .v3 twoRows rest
      ("ver:\"3.0\" loc:@a \t".toList ++ '\r' :: '\n' :: (" x\t, y".toList ++ '\n' ::
        ("N ,\t".toList ++ '\r' :: '\n' :: ("\t, M ".toList ++ '\n' :: rest)))) := by
    refine ⟨["ver:\"3.0\" loc:@a \t".toList, " x\t, y".toList, "N ,\t".toList, "\t, M ".toList],
      .cons ?_ (.cons ?_ (.cons ?_ (.cons ?_ .nil))), ?_⟩
    · rw [hheader]
      exact @LineOf.last [] _ [' ', '\t'] (by decide) (by decide)
    · exact @LineOf.comma [' '] ['x'] ['\t'] [' ', 'y'] _ (by decide) (by decide)
        (@LineOf.last [' '] ['y'] [] (by decide) (by decide))
    · exact @LineOf.comma [] ['N'] [' '] ['\t'] _ (by decide) (by decide)
        (@LineOf.last ['\t'] [] [] (by decide) (by decide))
    · exact @LineOf.comma ['\t'] [] [] [' ', 'M', ' '] _ (by decide) (by decide)
        (@LineOf.last [' '] ['M'] [' '] (by decide) (by decide))
    · exact .cons (.returnNewline _) (.cons (.newline _) (.cons (.returnNewline _)
        (.cons (.newline _) (.nil rest))))
  have hblank (rest : List Char) :
      Ended (List.replicate 2 []) rest ('\n' :: '\r' :: '\n' :: rest) :=
    .cons (.newline _) (.cons (.returnNewline _) (.nil rest))
  have hplain : LaidOut .v3 twoRows [] ("ver:\"3.0\" loc:@a".toList ++ '\n' ::
      ("x,y".toList ++ '\n' :: ("N,".toList ++ '\n' :: (",M".toList ++ [])))) := by
    refine ⟨["ver:\"3.0\" loc:@a".toList, "x,y".toList, "N,".toList, ",M".toList],
      .cons ?_ (.cons ?_ (.cons ?_ (.cons ?_ .nil))), ?_⟩
    · rw [hheader]
      exact @LineOf.last [] _ [] (by decide) (by decide)
    · exact @LineOf.comma [] ['x'] [] ['y'] _ (by decide) (by decide)
        (@LineOf.last [] ['y'] [] (by decide) (by decide))
    · exact @LineOf.comma [] ['N'] [] [] _ (by decide) (by decide)
        (@LineOf.last [] [] [] (by decide) (by decide))
    · exact @LineOf.comma [] [] [] ['M'] _ (by decide) (by decide)
        (@LineOf.last [] ['M'] [] (by decide) (by decide))
    · exact .cons (.newline _) (.cons (.newline _) (.cons (.newline _)
        (.cons .endOfText (.nil []))))
  have hstream := Stream.blank 1 (hloose _) (hblank _) (.last hplain)
  exact hstream

theorem looseText_reads_back :
    (∀ g ∈ [twoRows, twoRows], g.everyValue Value.zincSafe = true) ∧
      Stream .v3 [twoRows, twoRows] looseText.toList ∧
      (Reader.ofText looseText).grids.1 = .ok [twoRows, twoRows] ∧
      (((Reader.ofText looseText).after [.grid]).ask .grid).1 = .ok twoRows := by
  have hsafe : ∀ g ∈ [twoRows, twoRows], g.everyValue Value.zincSafe = true := by
    intro g hg
    obtain rfl : g = twoRows := by simpa using hg
    decide
  obtain ⟨hgrids, hgrid⟩ := (streams_read_back [twoRows, twoRows] hsafe).2 looseText stream_looseText
  exact ⟨hsafe, stream_looseText, hgrids, hgrid 1 (by decide)⟩

end Zinc

end TagGrid
