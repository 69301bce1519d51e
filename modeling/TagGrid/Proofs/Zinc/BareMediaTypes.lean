import TagGrid.Proofs.Zinc.Pieces
import TagGrid.Proofs.Zinc.Shapes

/-! # Media types without quotes around them

Version 2 of the format writes a media type as it is. If it starts with a quote itself, the
reader takes it for a quoted one. What it reads then ends at a quote in front of a
parenthesis, and no parenthesis stands in a media type, so the reading ends where the media
type ends or is refused. In both cases the media type is lost.
-/

namespace TagGrid

/-- Whether a media type starts with a quote. -/
def MediaType.startsWithQuote (m : MediaType) : Bool := ['"'].isPrefixOf m.mime.toList

theorem MediaType.mem_mime (m : MediaType) : ∀ c ∈ m.mime.toList, c ≠ ')' ∧ ' ' ≤ c := by
  intro c hc
  have hchars := (Bool.and_eq_true_iff.1 m.valid).2
  have hchar := List.all_eq_true.1 hchars c hc
  simp only [isMediaChar, Bool.and_eq_true, bne_iff_ne, decide_eq_true_eq] at hchar
  exact ⟨hchar.1.2, hchar.2⟩

theorem MediaType.count_mime (m : MediaType) : m.mime.toList.count ')' = 0 :=
  List.count_eq_zero.2 fun hmem => (m.mem_mime ')' hmem).1 rfl

namespace Zinc

open Text Outcome

variable {cs rest : List Char} {c : Char}

/-! ## What a literal takes from the text -/

/-- What is read holds the parentheses of what is taken from the text, and is not longer than
that. -/
def Covers (taken read : List Char) : Prop :=
  taken.count ')' ≤ read.count ')' ∧ read.length ≤ taken.length

theorem Covers.append {taken read taken' read' : List Char} (h : Covers taken read)
    (h' : Covers taken' read') : Covers (taken ++ taken') (read ++ read') := by
  obtain ⟨hcount, hlength⟩ := h
  obtain ⟨hcount', hlength'⟩ := h'
  simp only [Covers, List.count_append, List.length_append]
  omega

/-- An escape of a code holds no parenthesis. -/
theorem count_unicode {digits : List Char} (h : Piece.Fits strQuotation (.unicode digits)) :
    (Piece.unicode digits).text.count ')' = 0 := by
  have hdigits : digits.count ')' = 0 := by
    rw [List.count_eq_zero]
    intro hmem
    exact absurd (h.2 ')' hmem) (by decide)
  rw [Piece.text, List.count_cons_of_ne (by decide), List.count_cons_of_ne (by decide), hdigits]

theorem covers_unicode {digits : List Char} (h : Piece.Fits strQuotation (.unicode digits)) :
    Covers (Piece.unicode digits).text [c] := by
  refine ⟨?_, ?_⟩
  · rw [count_unicode h]
    exact Nat.zero_le _
  · simp [Piece.text]

theorem covers_of_readAs {pieces : List Piece} {s : List Char} (h : ReadAs pieces s)
    (hfits : ∀ p ∈ pieces, p.Fits strQuotation) : Covers (pieces.flatMap Piece.text) s := by
  induction h with
  | nil => exact ⟨Nat.le_refl _, Nat.le_refl _⟩
  | @plain c _ _ _ ih =>
    have hplain : Covers [c] [c] := ⟨Nat.le_refl _, Nat.le_refl _⟩
    exact hplain.append (ih (List.forall_mem_cons.1 hfits).2)
  | kept => cases (List.forall_mem_cons.1 hfits).1
  | @letter c escaped _ _ _ ih =>
    obtain ⟨hpiece, hfits⟩ := List.forall_mem_cons.1 hfits
    have hc : c ≠ ')' := by
      rintro rfl
      cases hpiece.2
    have hletter : Covers ['\\', c] [escaped] := by
      simp [Covers, List.count_cons, hc]
    exact hletter.append (ih hfits)
  | single _ _ _ ih =>
    obtain ⟨hpiece, hfits⟩ := List.forall_mem_cons.1 hfits
    exact (covers_unicode hpiece).append (ih hfits)
  | @pair _ low _ _ _ _ _ ih =>
    obtain ⟨hhigh, hfits⟩ := List.forall_mem_cons.1 hfits
    obtain ⟨hlow, hfits⟩ := List.forall_mem_cons.1 hfits
    have hnothing : Covers (Piece.unicode low).text [] := by
      rw [Covers, count_unicode hlow]
      exact ⟨Nat.le_refl _, Nat.zero_le _⟩
    exact (covers_unicode hhigh).append (hnothing.append (ih hfits))

/-! ## Media types -/

/-- A text is closed by the first parenthesis behind it. -/
theorem append_close_inj {as bs rest rest' : List Char} (has : as.count ')' = 0)
    (hbs : bs.count ')' = 0) (h : as ++ ')' :: rest = bs ++ ')' :: rest') :
    as = bs ∧ rest = rest' := by
  have hstops (rest : List Char) : Stops (· != ')') (')' :: rest) := Stops.cons rfl
  have hrun {cs : List Char} (hcs : cs.count ')' = 0) : ∀ c ∈ cs, (c != ')') = true := by
    intro c hc
    rw [bne_iff_ne]
    rintro rfl
    exact List.count_eq_zero.1 hcs hc
  have hfront := congrArg (List.takeWhile (· != ')')) h
  have hbehind := congrArg (List.dropWhile (· != ')')) h
  rw [Stops.takeWhile_append (hrun has) (hstops rest),
    Stops.takeWhile_append (hrun hbs) (hstops rest')] at hfront
  rw [Stops.dropWhile_append (hrun has) (hstops rest),
    Stops.dropWhile_append (hrun hbs) (hstops rest')] at hbehind
  exact ⟨hfront, (List.cons.inj hbehind).2⟩

/-- What a quoted media type was read from. -/
theorem exists_of_readMediaType {m : MediaType}
    (h : readMediaType ('"' :: cs) = ok m rest) :
    ∃ body, cs = body ++ ['"'] ++ ')' :: rest ∧ body.count ')' = 0 ∧
      m.mime.toList.length ≤ body.length := by
  obtain ⟨mime, mid, hstr, h⟩ := exists_of_bind_eq_ok h
  obtain ⟨_, rest₁, hclose, h⟩ := exists_of_bind_eq_ok h
  obtain ⟨read, mid', hbody, hmime⟩ := exists_of_bind_eq_ok hstr
  cases hmime
  obtain ⟨hrest, hcheck⟩ : rest₁ = rest ∧ MediaType.ofText? (String.ofList read) = .ok m := by
    cases hcheck : MediaType.ofText? (String.ofList read) with
    | error v =>
      rw [hcheck] at h
      cases h
    | ok m' =>
      rw [hcheck] at h
      cases h
      exact ⟨rfl, rfl⟩
  obtain ⟨pieces, s, hfits, hcs, hreads, rfl⟩ := exists_of_readLiteralBody hbody
  obtain ⟨hcount, hlength⟩ := covers_of_readAs hreads hfits
  have hread : m.mime.toList = read := by
    rw [MediaType.mime_of_ofText? hcheck, String.toList_ofList]
  have hnone := m.count_mime
  rw [hread] at hnone ⊢
  refine ⟨pieces.flatMap Piece.text, ?_, by omega, hlength⟩
  rw [hcs, eq_of_readChar hclose, hrest, List.append_assoc]
  rfl

/-- If a media type that starts with a quote is read at all, it is another one that is
read. -/
theorem leaves_readMediaType {m : MediaType} (hquote : m.startsWithQuote = true)
    (rest : List Char) : Leaves rest (· ≠ m) (readMediaType (m.mime.toList ++ ')' :: rest)) := by
  obtain ⟨cs, hmime⟩ : ∃ cs, m.mime.toList = '"' :: cs := by
    obtain ⟨cs, hcs⟩ := List.isPrefixOf_iff_prefix.1 hquote
    exact ⟨cs, hcs.symm⟩
  have hnone := m.count_mime
  cases hread : readMediaType (m.mime.toList ++ ')' :: rest) with
  | fail => trivial
  | ok m' rest' =>
    rw [hmime] at hread hnone
    obtain ⟨body, hcs, hcount, hlength⟩ := exists_of_readMediaType hread
    -- Neither text holds a parenthesis, so the one behind the closing quote is the one behind
    -- the media type.
    obtain ⟨rfl, rfl⟩ := append_close_inj (by simpa using hnone) (by simpa using hcount) hcs
    refine ⟨rfl, ?_⟩
    rintro rfl
    rw [hmime, List.length_cons, List.length_append, List.length_singleton] at hlength
    omega

theorem readMediaType_bare {m : MediaType} (hbare : m.startsWithQuote = false)
    (rest : List Char) : readMediaType (m.mime.toList ++ ')' :: rest) = ok m rest := by
  have hrun : ∀ c ∈ m.mime.toList, (c != ')' && c != '\n') = true := by
    intro c hc
    obtain ⟨hclose, hspace⟩ := m.mem_mime c hc
    simp only [Bool.and_eq_true, bne_iff_ne]
    refine ⟨hclose, ?_⟩
    rintro rfl
    exact absurd hspace (by decide)
  have hstops : Stops (fun c => c != ')' && c != '\n') (')' :: rest) := Stops.cons rfl
  unfold readMediaType
  split
  · rename_i heq
    cases hmime : m.mime.toList with
    | nil =>
      rw [hmime] at heq
      cases heq
    | cons c cs =>
      rw [hmime, List.cons_append] at heq
      obtain ⟨rfl, -⟩ := List.cons.inj heq
      rw [MediaType.startsWithQuote, hmime] at hbare
      cases hbare
  · simp only [Stops.takeWhile_append hrun hstops, Stops.dropWhile_append hrun hstops,
      String.ofList_toList]
    exact closing_ok m.ofText?_mime rest

/-! ## Values -/

theorem readValue_bare (m : MediaType) (setting : Setting) (rest : List Char) :
    readValue setting (textIn .v2 (.bin m) ++ rest) =
      (readMediaType (m.mime.toList ++ ')' :: rest)).map fun m => some (.bin m) := by
  have htext : textIn .v2 (.bin m) ++ rest =
      ['B', 'i', 'n'] ++ '(' :: (m.mime.toList ++ ')' :: rest) := by
    simp [textIn]
  have hkeyword : keyword? setting ['B', 'i', 'n'] = none := by cases setting <;> rfl
  rw [htext, List.cons_append, readValue_alpha (by decide), ← List.cons_append,
    readWordValue_open (List.all_eq_true.1 (by decide)) hkeyword, if_pos rfl]

theorem readsBack_bare {m : MediaType} (hbare : m.startsWithQuote = false) :
    ReadsBack (textIn .v2 (.bin m)) (.bin m) := by
  intro setting rest _
  rw [readValue_bare, readMediaType_bare hbare]
  rfl

/-- What is read in place of a media type that starts with a quote is no media type equal
to it. -/
theorem readsOnly_bare {m : MediaType} (hquote : m.startsWithQuote = true) :
    ReadsOnly (fun w => w.same (.bin m) = false) (textIn .v2 (.bin m)) := by
  intro setting rest _
  rw [readValue_bare]
  refine (leaves_readMediaType hquote rest).map fun m' hne => ⟨_, rfl, ?_⟩
  exact beq_false_of_ne hne

end Zinc

end TagGrid
