import TagGrid.Proofs.Zinc.Pieces
import TagGrid.Proofs.Zinc.Values

/-! # Values in front of more text

What is read from a text is also read from the text with more behind it, and that more is
left in addition. A literal in quotes or parentheses has an end of its own; all others end
with the text, and what comes behind must not go on with them. Nothing is said about what
cannot be read: a literal that is not closed may well be closed by more text.
-/

namespace TagGrid.Zinc

open Text Outcome

/-- If the first of two outcomes is a success, so is the second one, of the same value, and
it leaves `more` in addition. -/
def Outcome.Prolonged {α : Type} (more : List Char) (o o' : Outcome α) : Prop :=
  ∀ value rest, o = ok value rest → o' = ok value (rest ++ more)

namespace Outcome

variable {α β : Type} {more rest place place' : List Char} {o o' : Outcome α} {fault : Fault}

theorem prolonged_fail : Prolonged more (fail fault place rest) o' := nofun

theorem prolonged_failHere : Prolonged more (failHere fault rest) o' := nofun

theorem prolonged_ok (value : α) (rest : List Char) :
    Prolonged more (ok value rest) (ok value (rest ++ more)) := by
  rintro _ _ ⟨⟩
  rfl

theorem prolonged_check (place place' rest : List Char) (e : Except Violation α) :
    Prolonged more (check place rest e) (check place' (rest ++ more) e) := by
  cases e with
  | ok value => exact prolonged_ok value rest
  | error v => exact prolonged_fail

theorem prolonged_examine (rest : List Char) (e : Except Fault α) :
    Prolonged more (examine rest e) (examine (rest ++ more) e) := by
  cases e with
  | ok value => exact prolonged_ok value rest
  | error fault => exact prolonged_fail

namespace Prolonged

theorem bind {next next' : α → List Char → Outcome β} (h : Prolonged more o o')
    (hnext : ∀ value rest, o = ok value rest →
      Prolonged more (next value rest) (next' value (rest ++ more))) :
    Prolonged more (o.bind next) (o'.bind next') := by
  cases o with
  | ok value rest =>
    rw [h value rest rfl]
    exact hnext value rest rfl
  | fail fault place rest => exact prolonged_fail

theorem map (h : Prolonged more o o') (f : α → β) : Prolonged more (o.map f) (o'.map f) :=
  h.bind fun value rest _ => prolonged_ok (f value) rest

end Prolonged

end Outcome

variable {more : List Char}

/-! ## Quoted literals -/

theorem prolonged_readChar (wanted : Char) (cs : List Char) :
    Prolonged more (readChar wanted cs) (readChar wanted (cs ++ more)) := by
  cases cs with
  | nil => exact prolonged_failHere
  | cons c cs =>
    unfold readChar
    simp only [List.cons_append]
    split
    · exact prolonged_ok () cs
    · exact prolonged_failHere

/-- The pieces of a literal end with its closing quote. -/
theorem prolonged_readLiteral {q : Quotation} (hq : q.Faithful) (cs : List Char) :
    Prolonged more (readLiteral q cs) (readLiteral q (cs ++ more)) := by
  intro text rest h
  obtain ⟨pieces, hfits, rfl, hreads⟩ := (readLiteral_eq_ok hq).1 h
  exact (readLiteral_eq_ok hq).2 ⟨pieces, hfits, List.append_assoc _ _ _, hreads⟩

theorem prolonged_readStr (cs : List Char) : Prolonged more (readStr cs) (readStr (cs ++ more)) :=
  prolonged_readLiteral faithful_strQuotation cs

theorem prolonged_readUri (cs : List Char) : Prolonged more (readUri cs) (readUri (cs ++ more)) :=
  prolonged_readLiteral faithful_uriQuotation cs

/-! ## What comes behind -/

/-- A text behind another one that goes on with no value at its end: it can follow a value,
and no zone starts after its first space. -/
structure Detached (more : List Char) : Prop where
  follows : Follows more
  zoneless : ∀ rest, more = ' ' :: rest → Stops Char.isUpper rest

theorem append_eq_cons_cons {c d : Char} {cs rest : List Char} (h : cs ++ more = c :: d :: rest) :
    (∃ rest', cs = c :: d :: rest') ∨ cs = [c] ∧ more = d :: rest ∨
      cs = [] ∧ more = c :: d :: rest := by
  rcases cs with _ | ⟨c', _ | ⟨d', cs⟩⟩
  · exact .inr (.inr ⟨rfl, h⟩)
  · obtain ⟨rfl, rfl⟩ := List.cons.inj h
    exact .inr (.inl ⟨rfl, rfl⟩)
  · simp only [List.cons_append, List.cons.injEq] at h
    obtain ⟨rfl, rfl, -⟩ := h
    exact .inl ⟨cs, rfl⟩

namespace Follows

theorem head_ne (h : Follows more) {c : Char} (hc : c ∉ delimiters) (rest : List Char) :
    more ≠ c :: rest := by
  rintro rfl
  exact hc h.1

/-- The text to display of a ref stands right behind it. -/
theorem append_ne_quoted (h : Follows more) {cs : List Char}
    (hcs : ∀ quoted, cs ≠ ' ' :: '"' :: quoted) (quoted : List Char) :
    cs ++ more ≠ ' ' :: '"' :: quoted := by
  intro heq
  rcases append_eq_cons_cons heq with ⟨rest, hrest⟩ | ⟨-, hmore⟩ | ⟨-, rfl⟩
  · exact hcs rest hrest
  · exact h.head_ne (by decide) _ hmore
  · exact h.2 rfl rfl

end Follows

/-! ## Literals that start with a digit -/

namespace DigitToken

variable {t : DigitToken} {c : Char}

/-- A delimiter as the next character is like none. -/
theorem step?_next {next : Option Char} (h : ∀ d ∈ next, d ∈ delimiters) :
    t.step? c next = t.step? c none := by
  cases next with
  | none => rfl
  | some d =>
    have hd := h d rfl
    simp only [delimiters, List.mem_cons, List.not_mem_nil, or_false] at hd
    have hnext : nextIsDigit (some d) = nextIsDigit none ∧ d ≠ '+' ∧ d ≠ '-' := by
      rcases hd with rfl | rfl | rfl | rfl | rfl | rfl | rfl | rfl <;> decide
    obtain ⟨hdigit, hplus, hminus⟩ := hnext
    simp [step?, hdigit, hplus, hminus]

theorem scan_append (h : Follows more) (t : DigitToken) (cs : List Char) :
    t.scan (cs ++ more) = ((t.scan cs).1, (t.scan cs).2 ++ more) := by
  have hhead (cs : List Char) (t : DigitToken) (c : Char) :
      t.step? c (cs ++ more).head? = t.step? c cs.head? := by
    cases cs with
    | nil =>
      apply step?_next
      intro d hd
      cases more with
      | nil => cases hd
      | cons e more =>
        obtain rfl : e = d := by simpa using hd
        exact h.1
    | cons d cs => rfl
  fun_induction scan t cs with
  | case1 t => exact scan_follows h
  | case2 t c cs t' hstep ih =>
    rw [List.cons_append, scan, hhead, hstep]
    exact ih
  | case3 t c cs hstep =>
    rw [List.cons_append, scan, hhead, hstep]

end DigitToken

/-- Without a space and a capital there is no zone. -/
theorem readZone_without {text cs : List Char} {zulu : Bool}
    (h : ∀ c rest, cs = ' ' :: c :: rest → c.isUpper = false) :
    readZone text zulu cs =
      if zulu then ok .utc cs else failHere (.zoneMissing (String.ofList text)) cs := by
  unfold readZone
  simp only
  split
  · rename_i c rest
    rw [h c rest rfl]
    rfl
  · rfl

theorem readZone_capital {c : Char} (hc : c.isUpper = true) (text : List Char) (zulu : Bool)
    (rest : List Char) : readZone text zulu (' ' :: c :: rest) =
      check ((c :: rest).dropWhile Zone.isNameChar) ((c :: rest).dropWhile Zone.isNameChar)
        (Zone.ofName? (String.ofList ((c :: rest).takeWhile Zone.isNameChar))) := by
  simp only [readZone, hc, if_true]

theorem prolonged_readZone (h : Detached more) (text : List Char) (zulu : Bool) (cs : List Char) :
    Prolonged more (readZone text zulu cs) (readZone text zulu (cs ++ more)) := by
  by_cases hzone : ∃ c rest, cs = ' ' :: c :: rest ∧ c.isUpper = true
  · obtain ⟨c, rest, rfl, hc⟩ := hzone
    have hstops : Stops Zone.isNameChar more := h.follows.stops (by decide)
    rw [List.cons_append, List.cons_append, readZone_capital hc, readZone_capital hc,
      ← List.cons_append, hstops.takeWhile_behind, hstops.dropWhile_behind]
    exact prolonged_check _ _ _ _
  · have hnone : ∀ c rest, cs = ' ' :: c :: rest → c.isUpper = false := by
      intro c rest hcs
      exact Bool.eq_false_iff.2 fun hc => hzone ⟨c, rest, hcs, hc⟩
    have hnone' : ∀ c rest, cs ++ more = ' ' :: c :: rest → c.isUpper = false := by
      intro c rest hcs
      rcases append_eq_cons_cons hcs with ⟨rest', rfl⟩ | ⟨-, rfl⟩ | ⟨-, rfl⟩
      · exact hnone c rest' rfl
      · exact h.follows.stops (p := Char.isUpper) (by decide) c rfl
      · exact h.zoneless _ rfl c rfl
    rw [readZone_without hnone, readZone_without hnone']
    split
    · exact prolonged_ok _ cs
    · exact prolonged_failHere

theorem prolonged_readTimestamp (h : Detached more) (text cs : List Char) :
    Prolonged more (readTimestamp text cs) (readTimestamp text (cs ++ more)) := by
  unfold readTimestamp
  refine (prolonged_examine cs _).bind fun parts rest _ => ?_
  refine (prolonged_readZone h text parts.zulu rest).bind fun zone rest _ => ?_
  exact prolonged_check _ _ _ _

theorem prolonged_readToken (h : Detached more) (t : DigitToken) (cs : List Char) :
    Prolonged more (readToken t cs) (readToken t (cs ++ more)) := by
  unfold readToken
  split
  · exact prolonged_examine cs _
  · split
    · exact prolonged_examine cs _
    · split
      · exact (prolonged_readTimestamp h t.text cs).map _
      · exact prolonged_examine cs _

theorem prolonged_readHexNumber (h : Follows more) (cs : List Char) :
    Prolonged more (readHexNumber cs) (readHexNumber (cs ++ more)) := by
  have hstops : Stops (fun c => (Text.hexDigit? c).isSome || c == '_') more := h.stops (by decide)
  unfold readHexNumber
  simp only [hstops.takeWhile_behind, hstops.dropWhile_behind]
  split
  · exact prolonged_ok _ _
  · exact prolonged_failHere

theorem readDigitLiteral_start {c : Char} {cs : List Char}
    (hx : ∀ rest, c = '0' → cs ≠ 'x' :: rest) :
    readDigitLiteral (c :: cs) =
      readToken ((DigitToken.start c).scan cs).1 ((DigitToken.start c).scan cs).2 := by
  unfold readDigitLiteral
  split
  · rename_i rest heq
    obtain ⟨rfl, rfl⟩ := List.cons.inj heq
    exact absurd rfl (hx rest rfl)
  · rename_i heq
    obtain ⟨rfl, rfl⟩ := List.cons.inj heq
    rfl
  · rename_i heq
    cases heq

theorem prolonged_readDigitLiteral (h : Detached more) (cs : List Char) :
    Prolonged more (readDigitLiteral cs) (readDigitLiteral (cs ++ more)) := by
  by_cases hhex : ∃ rest, cs = '0' :: 'x' :: rest
  · obtain ⟨rest, rfl⟩ := hhex
    exact prolonged_readHexNumber h.follows rest
  · cases cs with
    | nil => exact prolonged_failHere
    | cons c cs =>
      have hx : ∀ rest, c = '0' → cs ≠ 'x' :: rest := by
        rintro rest rfl rfl
        exact hhex ⟨rest, rfl⟩
      have hx' : ∀ rest, c = '0' → cs ++ more ≠ 'x' :: rest := by
        intro rest hc hcs
        cases cs with
        | nil => exact h.follows.head_ne (by decide) _ hcs
        | cons d cs =>
          obtain ⟨rfl, -⟩ := List.cons.inj hcs
          exact hx cs hc rfl
      rw [List.cons_append, readDigitLiteral_start hx, readDigitLiteral_start hx',
        DigitToken.scan_append h.follows]
      exact prolonged_readToken h _ _

/-! ## Values in one piece -/

theorem readRef_of_ne_quoted {cs : List Char}
    (h : ∀ quoted, cs.dropWhile isRefChar ≠ ' ' :: '"' :: quoted) :
    readRef cs =
      if cs.takeWhile isRefChar = [] then failHere .refWithoutId (cs.dropWhile isRefChar)
      else check (cs.dropWhile isRefChar) (cs.dropWhile isRefChar)
        (Ref.ofId? (String.ofList (cs.takeWhile isRefChar)) none) := by
  unfold readRef
  simp only

theorem readRef_of_quoted {cs quoted : List Char}
    (h : cs.dropWhile isRefChar = ' ' :: '"' :: quoted) :
    readRef cs =
      if cs.takeWhile isRefChar = [] then failHere .refWithoutId (' ' :: '"' :: quoted)
      else (readStr ('"' :: quoted)).bind fun dis rest =>
        check rest rest (Ref.ofId? (String.ofList (cs.takeWhile isRefChar)) (some dis)) := by
  unfold readRef
  simp only [h]

theorem prolonged_readRef (h : Follows more) (cs : List Char) :
    Prolonged more (readRef cs) (readRef (cs ++ more)) := by
  have hstops : Stops isRefChar more := h.stops (by decide)
  by_cases hquoted : ∃ quoted, cs.dropWhile isRefChar = ' ' :: '"' :: quoted
  · obtain ⟨quoted, hquoted⟩ := hquoted
    have hquoted' : (cs ++ more).dropWhile isRefChar = ' ' :: '"' :: (quoted ++ more) := by
      rw [hstops.dropWhile_behind, hquoted]
      rfl
    rw [readRef_of_quoted hquoted, readRef_of_quoted hquoted', hstops.takeWhile_behind]
    split
    · exact prolonged_failHere
    · refine (prolonged_readStr ('"' :: quoted)).bind fun dis rest _ => ?_
      exact prolonged_check _ _ _ _
  · have hne := not_exists.1 hquoted
    have hne' : ∀ quoted, (cs ++ more).dropWhile isRefChar ≠ ' ' :: '"' :: quoted := by
      rw [hstops.dropWhile_behind]
      exact h.append_ne_quoted hne
    rw [readRef_of_ne_quoted hne, readRef_of_ne_quoted hne', hstops.takeWhile_behind,
      hstops.dropWhile_behind]
    split
    · exact prolonged_failHere
    · exact prolonged_check _ _ _ _

theorem prolonged_readSymbol (h : Follows more) (cs : List Char) :
    Prolonged more (readSymbol cs) (readSymbol (cs ++ more)) := by
  have hstops : Stops isSymbolChar more := h.stops (by decide)
  unfold readSymbol
  simp only [hstops.takeWhile_behind, hstops.dropWhile_behind]
  exact prolonged_check _ _ _ _

theorem prolonged_closing {α β : Type} {o o' : Outcome α} (h : Prolonged more o o')
    (make : α → Except Violation β) : Prolonged more (closing o make) (closing o' make) := by
  unfold closing
  refine h.bind fun value rest _ => ?_
  refine (prolonged_readChar ')' rest).bind fun _ rest _ => ?_
  exact prolonged_check _ _ _ _

theorem readMediaType_of_ne_quote {cs : List Char} (h : ∀ quoted, cs ≠ '"' :: quoted) :
    readMediaType cs = closing
      (ok (String.ofList (cs.takeWhile fun c => c != ')' && c != '\n'))
        (cs.dropWhile fun c => c != ')' && c != '\n')) MediaType.ofText? := by
  unfold readMediaType
  simp only

theorem prolonged_readMediaType (cs : List Char) :
    Prolonged more (readMediaType cs) (readMediaType (cs ++ more)) := by
  by_cases hquote : ∃ quoted, cs = '"' :: quoted
  · obtain ⟨quoted, rfl⟩ := hquote
    exact prolonged_closing (prolonged_readStr ('"' :: quoted)) MediaType.ofText?
  · have hne := not_exists.1 hquote
    rw [readMediaType_of_ne_quote hne]
    -- A bare type that is closed ends at its parenthesis.
    by_cases hrest : cs.dropWhile (fun c => c != ')' && c != '\n') = []
    · rw [hrest]
      exact prolonged_failHere
    · have hcs : cs ≠ [] := by
        rintro rfl
        exact hrest rfl
      have hne' := append_ne_cons hcs hne more
      rw [readMediaType_of_ne_quote hne', takeWhile_append_of_ne_nil hrest,
        dropWhile_append_of_ne_nil hrest]
      exact prolonged_closing (prolonged_ok _ _) MediaType.ofText?

theorem prolonged_readDecimal (h : Follows more) (cs : List Char) :
    Prolonged more (readDecimal cs) (readDecimal (cs ++ more)) := by
  have hstops : Stops (fun c => c.isDigit || ['-', '+', '.', 'e', 'E'].contains c) more :=
    h.stops (by decide)
  unfold readDecimal
  simp only
  by_cases hskip : skipSpaces cs = []
  · rw [hskip]
    exact prolonged_failHere
  · rw [skipSpaces_append hskip, hstops.takeWhile_behind, hstops.dropWhile_behind]
    split
    · exact prolonged_ok _ _
    · exact prolonged_failHere

theorem prolonged_readCoord (h : Follows more) (cs : List Char) :
    Prolonged more (readCoord cs) (readCoord (cs ++ more)) := by
  unfold readCoord
  apply prolonged_closing
  refine (prolonged_readDecimal h cs).bind fun lat rest _ => ?_
  refine (prolonged_readChar ',' rest).bind fun _ rest _ => ?_
  exact (prolonged_readDecimal h rest).map _

theorem prolonged_readTypedText (typeName cs : List Char) :
    Prolonged more (readTypedText typeName cs) (readTypedText typeName (cs ++ more)) :=
  prolonged_closing (prolonged_readStr cs) _

theorem prolonged_readWordValue (h : Follows more) (setting : Setting) (cs : List Char) :
    Prolonged more (readWordValue setting cs) (readWordValue setting (cs ++ more)) := by
  have hstops : Stops isNameChar more := h.stops (by decide)
  unfold readWordValue
  simp only [hstops.takeWhile_behind, hstops.dropWhile_behind]
  generalize cs.takeWhile isNameChar = word
  generalize cs.dropWhile isNameChar = rest
  split
  · exact prolonged_ok _ rest
  · split
    · rename_i contents
      simp only [List.cons_append]
      split
      · exact (prolonged_readMediaType contents).map _
      · split
        · exact (prolonged_readCoord h contents).map _
        · split
          · exact (prolonged_readTypedText word contents).map _
          · exact prolonged_failHere
    · exact prolonged_failHere

theorem readNegative_of_ne {c : Char} (hc : c ≠ 'I') (cs : List Char) :
    readNegative (c :: cs) =
      if c.isDigit then readDigitLiteral ('-' :: c :: cs) else failHere .dash ('-' :: c :: cs) := by
  unfold readNegative
  split
  · rename_i heq
    exact absurd (List.cons.inj heq).1 hc
  · rename_i heq
    cases heq
    rfl
  · rename_i heq
    cases heq

theorem prolonged_readNegative (h : Detached more) (cs : List Char) :
    Prolonged more (readNegative cs) (readNegative (cs ++ more)) := by
  have hstops : Stops Char.isAlphanum more := h.follows.stops (by decide)
  cases cs with
  | nil => exact prolonged_failHere
  | cons c cs =>
    by_cases hc : c = 'I'
    · subst hc
      unfold readNegative
      simp only [List.cons_append]
      rw [← List.cons_append, hstops.takeWhile_behind, hstops.dropWhile_behind]
      split
      · exact prolonged_ok _ _
      · exact prolonged_failHere
    · rw [List.cons_append, readNegative_of_ne hc, readNegative_of_ne hc]
      split
      · exact prolonged_readDigitLiteral h ('-' :: c :: cs)
      · exact prolonged_failHere

theorem prolonged_readAtom (h : Detached more) (setting : Setting) (cs : List Char) :
    Prolonged more (readAtom setting cs) (readAtom setting (cs ++ more)) := by
  cases cs with
  | nil => exact prolonged_failHere
  | cons c cs =>
    by_cases hmark : c ∈ ['-', '"', '\x60', '@', '^']
    · simp only [List.mem_cons, List.not_mem_nil, or_false] at hmark
      rcases hmark with rfl | rfl | rfl | rfl | rfl
      · exact (prolonged_readNegative h cs).map some
      · exact (prolonged_readStr ('"' :: cs)).map _
      · exact (prolonged_readUri ('\x60' :: cs)).map _
      · exact (prolonged_readRef h.follows cs).map _
      · exact (prolonged_readSymbol h.follows cs).map _
    · rw [List.cons_append, readAtom_cons hmark, readAtom_cons hmark]
      split
      · exact (prolonged_readDigitLiteral h (c :: cs)).map some
      · split
        · exact prolonged_readWordValue h.follows setting (c :: cs)
        · exact prolonged_failHere

/-! ## Values and lists -/

mutual

theorem prolonged_readValue (h : Detached more) (setting : Setting) (cs : List Char) :
    Prolonged more (readValue setting cs) (readValue setting (cs ++ more)) := by
  cases cs with
  | nil =>
    rw [readValue.eq_def]
    exact prolonged_failHere
  | cons c cs =>
    by_cases hc : c = '['
    · subst hc
      rw [List.cons_append, readValue_list, readValue_list]
      exact (prolonged_readItems h setting cs).map _
    · rw [List.cons_append, readValue_cons hc, readValue_cons hc]
      exact prolonged_readAtom h setting (c :: cs)
termination_by 2 * cs.length

theorem prolonged_readItems (h : Detached more) (setting : Setting) (cs : List Char) :
    Prolonged more (readItems setting cs) (readItems setting (cs ++ more)) := by
  have hlength := length_skipSpaces_le cs
  by_cases hskip : skipSpaces cs = []
  · have hnone : ∀ rest, skipSpaces cs ≠ ']' :: rest := by
      rw [hskip]
      exact nofun
    rw [readItems_item hnone, hskip, readValue.eq_def]
    exact prolonged_fail
  · have hmore := skipSpaces_append hskip more
    by_cases hclose : ∃ rest, skipSpaces cs = ']' :: rest
    · obtain ⟨rest, hclose⟩ := hclose
      have hclose' : skipSpaces (cs ++ more) = ']' :: (rest ++ more) := by
        rw [hmore, hclose]
        rfl
      rw [readItems_closed hclose, readItems_closed hclose']
      exact prolonged_ok [] rest
    · have hnone := not_exists.1 hclose
      have hnone' : ∀ rest, skipSpaces (cs ++ more) ≠ ']' :: rest := by
        rw [hmore]
        exact append_ne_cons hskip hnone more
      rw [readItems_item hnone, readItems_item hnone', hmore]
      refine (prolonged_readValue h setting (skipSpaces cs)).bind fun item rest hvalue => ?_
      have hrest := ((within_readValue setting _).suffix_of_ok hvalue).length_le
      unfold readBehindItem
      cases item with
      | none => exact prolonged_failHere
      | some item =>
        cases hbehind : skipSpaces rest with
        | nil => exact prolonged_fail
        | cons c rest' =>
          have hshorter : rest'.length + 1 ≤ rest.length :=
            (suffix_of_skipSpaces hbehind).length_le
          have hless : rest'.length < cs.length := by omega
          rw [skipSpaces_append (by rw [hbehind]; exact List.cons_ne_nil _ _), hbehind]
          simp only [List.cons_append]
          split
          · exact (prolonged_readItems h setting rest').map _
          · exact (prolonged_readChar ']' (c :: rest')).map _
termination_by 2 * cs.length + 1

end

end TagGrid.Zinc
