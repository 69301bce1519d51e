import TagGrid.Proofs.Text.Digits
import TagGrid.Proofs.Zinc.Follow
import TagGrid.Proofs.Zinc.GridPlaces

/-! # Reading takes something

A name, a literal, a value, a column, a row and a grid are never empty: what reads one of them
takes at least one character or fails. A line end may be empty, but only at the end of the text.
-/

namespace TagGrid.Zinc

open Text Outcome

variable {c : Char} {cs : List Char}

theorem length_dropWhile_lt {p : Char → Bool} (h : p c = true) (cs : List Char) :
    ((c :: cs).dropWhile p).length < (c :: cs).length := by
  rw [List.dropWhile_cons_of_pos h]
  exact Nat.lt_succ_of_le (List.dropWhile_suffix p).length_le

/-! ## Characters, names and literals -/

theorem advances_readChar (wanted : Char) (cs : List Char) : Advances cs (readChar wanted cs) := by
  unfold readChar
  split
  · rintro _ _ ⟨⟩
  · split
    · rintro _ _ ⟨⟩
      exact Nat.lt_succ_self _
    · rintro _ _ ⟨⟩

theorem advances_readName (cs : List Char) : Advances cs (readName cs) :=
  fun _ _ => length_readNameOr_lt

theorem advances_readLineEnd (h : cs ≠ []) : Advances cs (readLineEnd cs) := by
  have hpos := List.length_pos_iff.2 h
  unfold readLineEnd
  extract_lets start
  have hstart : start <:+ cs := by
    unfold start
    split
    · rename_i rest heq
      exact (List.suffix_cons _ rest).trans (suffix_of_skipSpaces heq)
    · exact skipSpaces_suffix cs
  clear_value start
  split
  · rintro _ _ ⟨⟩
    exact hpos
  · rintro _ _ ⟨⟩
    exact hstart.length_le
  · rintro _ _ ⟨⟩

theorem advances_readLiteral {q : Quotation} (hending : q.ending.Placed)
    (hlineEnd : q.lineEnd.Placed) (cs : List Char) : Advances cs (readLiteral q cs) := by
  unfold readLiteral
  refine (advances_readChar q.mark cs).andThen fun _ rest => ?_
  exact (within_readLiteralBody hending hlineEnd [] rest).map _

/-! ## Values -/

theorem advances_readNegative (cs : List Char) : Advances ('-' :: cs) (readNegative cs) := by
  unfold readNegative
  split
  · simp only
    split
    · rintro _ _ ⟨⟩
      exact Nat.lt_succ_of_le (List.dropWhile_suffix _).length_le
    · rintro _ _ ⟨⟩
  · split
    · exact advances_of_within (within_readDigitLiteral '-' _) (Nat.lt_succ_self _)
    · rintro _ _ ⟨⟩
  · rintro _ _ ⟨⟩

theorem advances_readAtom (setting : Setting) (cs : List Char) :
    Advances cs (readAtom setting cs) := by
  unfold readAtom
  split
  · rintro _ _ ⟨⟩
  · exact (advances_readNegative _).map _
  · exact (advances_readLiteral (q := strQuotation) trivial trivial _).map _
  · exact (advances_readLiteral (q := uriQuotation) trivial trivial _).map _
  · exact advances_of_within ((within_readRef _).map _) (Nat.lt_succ_self _)
  · exact advances_of_within ((within_readSymbol _).map _) (Nat.lt_succ_self _)
  · split
    · exact advances_of_within ((within_readDigitLiteral _ _).map _) (Nat.lt_succ_self _)
    · split
      · rename_i halpha
        exact advances_of_within (within_readWordValue setting _)
          (length_dropWhile_lt (isNameChar_of_isAlpha halpha) _)
      · rintro _ _ ⟨⟩

theorem advances_readValue (setting : Setting) (cs : List Char) :
    Advances cs (readValue setting cs) := by
  rw [readValue.eq_def]
  split
  · rename_i rest
    exact advances_of_within ((within_readItems setting rest).map _) (Nat.lt_succ_self _)
  · exact advances_readAtom setting cs

/-! ## Grids -/

/-- A check takes nothing. -/
theorem eq_of_check {α : Type} {value : α} {place rest rest' : List Char} {e : Except Violation α}
    (h : check place rest e = ok value rest') : rest' = rest := by
  cases e with
  | ok value' =>
    cases h
    rfl
  | error v => cases h

theorem eq_of_pass {α : Type} {value : α} {rest rest' : List Char} {e : Except Violation α}
    (h : pass rest e = ok value rest') : rest' = rest := by
  cases e with
  | ok value' =>
    cases h
    rfl
  | error v => cases h

theorem advances_readColumn (setting : Setting) (draft : GridDraft) (cs : List Char) :
    Advances cs (readColumn setting draft cs) := by
  suffices h : Advances (skipSpaces cs) (readColumn setting draft cs) from
    h.mono (skipSpaces_suffix cs)
  intro draft' rest' hread
  obtain ⟨name, rest, hname, hread⟩ := exists_of_bind_eq_ok hread
  obtain ⟨added, mid, hcheck, htags⟩ := exists_of_bind_eq_ok hread
  obtain rfl := eq_of_check hcheck
  have hrest' := ((within_readTags setting .empty mid).map _).suffix_of_ok htags
  exact Nat.lt_of_le_of_lt hrest'.length_le (advances_readName _ name mid hname)

/-- A row takes its line end, if nothing else. -/
theorem advances_readRow (setting : Setting) (draft : GridDraft) (h : cs ≠ []) :
    Advances cs (readRow setting draft cs) := by
  intro draft' rest' hread
  obtain ⟨cells, rest, hcells, hread⟩ := exists_of_bind_eq_ok hread
  have hrest := (within_rowCells setting draft.columns.length cs).suffix_of_ok hcells
  split at hread
  · cases hread
  · obtain ⟨_, mid, hend, hpass⟩ := exists_of_bind_eq_ok hread
    obtain rfl := eq_of_pass hpass
    by_cases hnil : rest = []
    · subst hnil
      have hmid := (within_readLineEnd []).suffix_of_ok hend
      rw [List.suffix_nil.1 hmid]
      exact List.length_pos_iff.2 h
    · exact Nat.lt_of_lt_of_le (advances_readLineEnd hnil _ _ hend) hrest.length_le

theorem advances_readHeader (cs : List Char) : Advances cs (readHeader cs) := by
  rw [readHeader_eq]
  exact ((advances_readName _).mono (skipBlanks_suffix cs)).andThen within_readBehindWord

theorem advances_readGrid (setting : Setting) (cs : List Char) :
    Advances cs (readGrid setting cs) := by
  rw [readGrid_eq]
  exact (advances_readHeader cs).andThen fun _ => within_readBehindHeader setting

/-! ## Loops

A loop goes on only if less of the text is left than before. It always is, so each loop does
what it would do without looking at how much is left.
-/

theorem readLiteralBody_cons (q : Quotation) (before : List Char) (c : Char) (rest : List Char) :
    readLiteralBody q before (c :: rest) =
      if c = '\n' then failHere q.lineEnd (c :: rest)
      else if c = q.mark then ok before.reverse rest
      else if c = '\\' then
        (readBackslash q rest).bind fun escaped => readLiteralBody q (escaped.reverse ++ before)
      else readLiteralBody q (c :: before) rest := by
  rw [readLiteralBody]
  cases readBackslash q rest with
  | ok => rfl
  | fail => rfl

theorem readItems_closed {rest : List Char} (h : skipSpaces cs = ']' :: rest)
    (setting : Setting) : readItems setting cs = ok [] rest := by
  rw [readItems.eq_def]
  split
  · rename_i heq
    rw [h] at heq
    cases heq
    rfl
  · rename_i hnot
    exact absurd h (hnot rest)

/-- Reads what comes behind an item of a list. -/
def readBehindItem (setting : Setting) (item : Option Value) (rest : List Char) :
    Outcome (List Value) :=
  match item, skipSpaces rest with
  | none, _ => failHere .absentItem rest
  | some item, [] => (readChar ']' []).map fun _ => [item]
  | some item, c :: rest =>
    if c = ',' then (readItems setting rest).map (item :: ·)
    else (readChar ']' (c :: rest)).map fun _ => [item]

theorem readItems_item (h : ∀ rest, skipSpaces cs ≠ ']' :: rest)
    (setting : Setting) :
    readItems setting cs = (readValue setting (skipSpaces cs)).bind (readBehindItem setting) := by
  rw [readItems.eq_def]
  split
  · rename_i rest heq
    exact absurd heq (h rest)
  · split
    · rename_i heq
      rw [heq]
      rfl
    · rename_i rest heq
      rw [heq]
      rfl
    · rename_i item rest heq
      have hlength := advances_readValue setting _ (some item) rest heq
      rw [heq, bind_ok]
      unfold readBehindItem
      split
      · rename_i rest' hcomma
        have hshorter := (suffix_of_skipSpaces hcomma).length_le
        have hstart := length_skipSpaces_le cs
        rw [List.length_cons] at hshorter
        rw [hcomma]
        simp only [if_true]
        exact if_pos (by omega)
      · rename_i hnot
        cases hrest : skipSpaces rest with
        | nil => rfl
        | cons c rest' =>
          have hc : c ≠ ',' := by
            rintro rfl
            exact hnot rest' hrest
          exact (if_neg hc).symm

/-- Reads a tag at its name, adding it to those before. -/
def readTag (setting : Setting) (before : Dict) (cs : List Char) : Outcome Dict :=
  (readTagValue setting (cs.dropWhile isNameChar)).bind fun value rest =>
    check cs rest (before.addOption? (String.ofList (cs.takeWhile isNameChar)) value)

theorem within_readTag (setting : Setting) (before : Dict) (cs : List Char) :
    Within cs (readTag setting before cs) := by
  unfold readTag
  have hvalue := (within_readTagValue setting _).mono (List.dropWhile_suffix (l := cs) isNameChar)
  refine hvalue.bind fun value rest _ hrest => ?_
  exact within_check (List.suffix_refl _) hrest _

theorem advances_readTag (setting : Setting) (before : Dict) (hc : c.isLower = true)
    (cs : List Char) : Advances (c :: cs) (readTag setting before (c :: cs)) := by
  intro tags rest hread
  obtain ⟨value, mid, hvalue, hcheck⟩ := exists_of_bind_eq_ok hread
  obtain rfl := eq_of_check hcheck
  have hname := isNameChar_of_isAlpha (isAlpha_of_isLower hc)
  have hmid := ((within_readTagValue setting _).suffix_of_ok hvalue).length_le
  exact Nat.lt_of_le_of_lt hmid (length_dropWhile_lt hname cs)

theorem readTags_eq (setting : Setting) (before : Dict) (cs : List Char) :
    readTags setting before cs = match skipSpaces cs with
      | [] => ok before []
      | c :: start =>
        if c.isLower then (readTag setting before (c :: start)).bind (readTags setting)
        else ok before (c :: start) := by
  rw [readTags.eq_def]
  cases hskip : skipSpaces cs with
  | nil => rfl
  | cons c start =>
    have hlength := (suffix_of_skipSpaces hskip).length_le
    simp only
    split
    · rename_i hc
      have hadvances := advances_readTag setting before hc start
      unfold readTag at hadvances ⊢
      cases hvalue : readTagValue setting ((c :: start).dropWhile isNameChar) with
      | fail => rfl
      | ok value rest =>
        rw [hvalue] at hadvances
        simp only [bind_ok] at hadvances ⊢
        cases hadd :
            before.addOption? (String.ofList ((c :: start).takeWhile isNameChar)) value with
        | error v => rfl
        | ok tags =>
          rw [hadd] at hadvances
          exact if_pos (Nat.lt_of_lt_of_le (hadvances tags rest rfl) hlength)
    · rfl

/-- Goes on behind a column. -/
def readBehindColumn (setting : Setting) (draft : GridDraft) (cs : List Char) : Outcome GridDraft :=
  match skipSpaces cs with
  | [] => ok draft []
  | c :: rest => if c = ',' then readColumns setting draft rest else ok draft (c :: rest)

theorem readColumns_eq (setting : Setting) (draft : GridDraft) (cs : List Char) :
    readColumns setting draft cs =
      (readColumn setting draft cs).bind (readBehindColumn setting) := by
  rw [readColumns.eq_def]
  cases hcolumn : readColumn setting draft cs with
  | fail => rfl
  | ok draft' rest =>
    have hrest := advances_readColumn setting draft cs draft' rest hcolumn
    simp only [bind_ok, readBehindColumn]
    split
    · rename_i rest' hcomma
      rw [hcomma]
      have hrest' := (suffix_of_skipSpaces hcomma).length_le
      rw [List.length_cons] at hrest'
      simp only [if_true]
      exact if_pos (by omega)
    · rename_i hnot
      cases hskip : skipSpaces rest with
      | nil => rfl
      | cons c rest' =>
        have hc : c ≠ ',' := by
          rintro rfl
          exact hnot rest' hskip
        exact (if_neg hc).symm

theorem readRows_line (h : ¬ (c = '\n' ∨ c = '\r')) (setting : Setting) (draft : GridDraft)
    (line : List Char) :
    readRows setting draft (c :: line) =
      (readRow setting draft (c :: line)).bind (readRows setting) := by
  rw [readRows, if_neg h]
  cases hrow : readRow setting draft (c :: line) with
  | fail => rfl
  | ok draft' rest =>
    exact if_pos (advances_readRow setting draft (List.cons_ne_nil c line) draft' rest hrow)

theorem readGrids_eq (setting : Setting) (cs : List Char) :
    readGrids setting cs = match skipBlanks cs with
      | [] => ok [] []
      | c :: start => (readGrid setting (c :: start)).bind fun grid rest =>
          (readGrids setting rest).map (grid :: ·) := by
  have hadvances := (advances_readGrid setting (skipBlanks cs)).mono (skipBlanks_suffix cs)
  rw [readGrids.eq_def]
  cases hskip : skipBlanks cs with
  | nil => rfl
  | cons c start =>
    rw [hskip] at hadvances
    simp only
    cases hgrid : readGrid setting (c :: start) with
    | fail => rfl
    | ok grid rest => exact if_pos (hadvances grid rest hgrid)

end TagGrid.Zinc
