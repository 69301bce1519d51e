import TagGrid.Proofs.Zinc.Follow
import TagGrid.Zinc.ValueText

/-! # Reading quoted literals back

Each character of a literal is read back by itself, whether it is written as an escape or
not, so a literal is read back up to its closing quote and whatever follows is left.
-/

namespace TagGrid.Zinc

open Text Outcome

/-- The digits of a control character, and their values. -/
theorem hex4_control : ∀ n < 32, hex4 n = ['0', '0', Nat.digitChar (n / 16), Nat.digitChar (n % 16)] ∧
    hexDigit? (Nat.digitChar (n / 16)) = some (n / 16) ∧
    hexDigit? (Nat.digitChar (n % 16)) = some (n % 16) := by
  decide

theorem readHex_hex4 {n : Nat} (h : n < 32) (rest : List Char) :
    readHex 4 0 (hex4 n ++ rest) = ok n rest := by
  obtain ⟨hdigits, hhigh, hlow⟩ := hex4_control n h
  have hzero : hexDigit? '0' = some 0 := rfl
  have hvalue : ((0 * 16 + 0) * 16 + 0) * 16 + n / 16 = n / 16 := by omega
  rw [hdigits]
  simp only [List.cons_append, List.nil_append, readHex, hzero, hhigh, hlow, hvalue]
  rw [Nat.div_add_mod']

theorem readUnicode_hex4 {c : Char} (h : c < ' ') (rest : List Char) :
    readUnicode (hex4 c.toNat ++ rest) = ok c rest := by
  have hlt : c.toNat < 32 := h
  have hhigh : isHighSurrogate c.toNat = false := by
    simp only [isHighSurrogate, Bool.and_eq_false_iff, decide_eq_false_iff_not]
    omega
  have hvalid : c.toNat.isValidChar := c.valid
  unfold readUnicode
  rw [readHex_hex4 hlt]
  simp only [bind_ok, hhigh, Bool.false_eq_true, if_false]
  rw [charOfCode, if_pos hvalid, Char.ofNat_toNat]

/-- A kind of literal whose escapes mean the same when they are read. -/
structure Quotation.Faithful (q : Quotation) : Prop where
  mark : simpleEscape? q.mark = some q.mark
  notNewline : q.mark ≠ '\n'
  notBackslash : q.mark ≠ '\\'
  notUnicode : q.mark ≠ 'u'
  keeps : [q.mark, '\\', 'n', 'r', 't', 'b', 'f', 'u'].any q.keepsBackslash = false

theorem faithful_strQuotation : strQuotation.Faithful :=
  ⟨by decide, by decide, by decide, by decide, by decide⟩

theorem faithful_uriQuotation : uriQuotation.Faithful :=
  ⟨by decide, by decide, by decide, by decide, by decide⟩

variable {q : Quotation}

theorem Quotation.Faithful.not_keeps (hq : q.Faithful) {c : Char}
    (hc : c ∈ [q.mark, '\\', 'n', 'r', 't', 'b', 'f', 'u']) : q.keepsBackslash c = false :=
  Bool.eq_false_iff.2 (List.any_eq_false.1 hq.keeps c hc)

theorem readBackslash_simple (hq : q.Faithful) {c escaped : Char}
    (hc : c ∈ [q.mark, '\\', 'n', 'r', 't', 'b', 'f', 'u']) (hu : c ≠ 'u')
    (hsimple : simpleEscape? c = some escaped) (rest : List Char) :
    readBackslash q (c :: rest) = ok [escaped] rest := by
  simp [readBackslash, hq.not_keeps hc, readEscape, hu, hsimple]

theorem readBackslash_unicode (hq : q.Faithful) {c : Char} (h : c < ' ') (rest : List Char) :
    readBackslash q ('u' :: (hex4 c.toNat ++ rest)) = ok [c] rest := by
  have hu : q.keepsBackslash 'u' = false := hq.not_keeps (by simp)
  simp [readBackslash, hu, readEscape, readUnicode_hex4 h]

/-- An escape that starts with a backslash adds the characters that it stands for. -/
theorem readLiteralBody_backslash (hq : q.Faithful) {escaped cs rest : List Char}
    (h : readBackslash q cs = ok escaped rest) (before : List Char) :
    readLiteralBody q before ('\\' :: cs) = readLiteralBody q (escaped.reverse ++ before) rest := by
  conv => lhs; unfold readLiteralBody
  have hmark : '\\' ≠ q.mark := hq.notBackslash.symm
  simp only [show ('\\' : Char) ≠ '\n' by decide, hmark, if_false, if_true]
  split
  · rename_i heq
    rw [h] at heq
    cases heq
    rfl
  · rename_i heq
    rw [h] at heq
    cases heq

/-- One character of a literal is read as itself. -/
theorem readLiteralBody_escapeChar (hq : q.Faithful) (c : Char) (before rest : List Char) :
    readLiteralBody q before (escapeChar q.mark c ++ rest) =
      readLiteralBody q (c :: before) rest := by
  have hsimple {c escaped : Char} (hc : c ∈ [q.mark, '\\', 'n', 'r', 't', 'b', 'f', 'u'])
      (hu : c ≠ 'u') (hs : simpleEscape? c = some escaped) :
      readLiteralBody q before ('\\' :: c :: rest) = readLiteralBody q (escaped :: before) rest :=
    readLiteralBody_backslash hq (readBackslash_simple hq hc hu hs rest) before
  unfold escapeChar
  split
  · subst_vars
    exact hsimple (by simp) hq.notUnicode hq.mark
  split
  · subst_vars
    exact hsimple (by simp) (by decide) rfl
  split
  · subst_vars
    exact hsimple (by simp) (by decide) rfl
  split
  · subst_vars
    exact hsimple (by simp) (by decide) rfl
  split
  · subst_vars
    exact hsimple (by simp) (by decide) rfl
  split
  · subst_vars
    exact hsimple (by simp) (by decide) rfl
  split
  · subst_vars
    exact hsimple (by simp) (by decide) rfl
  split
  · rename_i hcontrol
    exact readLiteralBody_backslash hq (readBackslash_unicode hq hcontrol rest) before
  · rename_i hmark hbackslash hnewline _ _ _ _ _
    conv => lhs; unfold readLiteralBody
    simp [hmark, hbackslash, hnewline]

theorem readLiteralBody_flatMap (hq : q.Faithful) (cs before rest : List Char) :
    readLiteralBody q before (cs.flatMap (escapeChar q.mark) ++ q.mark :: rest) =
      ok (before.reverse ++ cs) rest := by
  induction cs generalizing before with
  | nil =>
    unfold readLiteralBody
    simp [hq.notNewline]
  | cons c cs ih =>
    rw [List.flatMap_cons, List.append_assoc, readLiteralBody_escapeChar hq, ih]
    simp

theorem readLiteral_literal (hq : q.Faithful) (s : String) (rest : List Char) :
    readLiteral q (literal q.mark s.toList ++ rest) = ok s rest := by
  have hshape : literal q.mark s.toList ++ rest =
      q.mark :: (s.toList.flatMap (escapeChar q.mark) ++ q.mark :: rest) := by
    simp [literal]
  unfold readLiteral
  rw [hshape, readChar_cons, bind_ok, readLiteralBody_flatMap hq]
  simp

/-- A string literal is read as its string, whatever follows it. -/
theorem readStr_strLiteral (s : String) (rest : List Char) :
    readStr (strLiteral s ++ rest) = ok s rest :=
  readLiteral_literal faithful_strQuotation s rest

/-- A URI literal is read as its text, whatever follows it. -/
theorem readUri_uriLiteral (s : String) (rest : List Char) :
    readUri (uriLiteral s ++ rest) = ok s rest :=
  readLiteral_literal faithful_uriQuotation s rest

end TagGrid.Zinc
