import TagGrid.Proofs.Text.Digits
import TagGrid.Proofs.Zinc.Places
import TagGrid.Proofs.Zinc.Quoted

/-! # The pieces of literals

Between its quotes a literal is a sequence of pieces: characters that stand for themselves,
escapes of one letter, and escapes of a code of UTF-16. Which sequences stand for which
characters is a relation with one parameter, the codes that may follow the first half of a
surrogate pair. The reader takes any code there, and reads nothing but what the relation with
this parameter has.
-/

namespace TagGrid.Zinc

open Text Outcome

/-- Whether a code is one of the second halves of a surrogate pair. -/
def isLowSurrogate (code : Nat) : Bool := 0xDC00 ≤ code && code < 0xE000

/-- The character that is read for two codes, of the second of which the ten low bits count. -/
def pairChar (high low : Nat) : Char :=
  Char.ofNat (0x10000 + (high - 0xD800) * 0x400 + low % 0x400)

/-- A piece of the text between the quotes of a literal. -/
inductive Piece where
  | plain (c : Char)
  /-- A backslash that is kept, and the character after it. -/
  | kept (c : Char)
  /-- An escape of one letter, and the character that it stands for. -/
  | letter (c escaped : Char)
  /-- An escape of the code with these hexadecimal digits. -/
  | unicode (digits : List Char)
  deriving Repr, DecidableEq

namespace Piece

def text : Piece → List Char
  | plain c => [c]
  | kept c => ['\\', c]
  | letter c _ => ['\\', c]
  | unicode digits => '\\' :: 'u' :: digits

/-- A piece can stand in a literal of a kind. -/
def Fits (q : Quotation) : Piece → Prop
  | plain c => c ≠ '\n' ∧ c ≠ q.mark ∧ c ≠ '\\'
  | kept c => q.keepsBackslash c = true
  | letter c escaped => q.keepsBackslash c = false ∧ simpleEscape? c = some escaped
  | unicode digits => digits.length = 4 ∧ ∀ c ∈ digits, (hexDigit? c).isSome = true

end Piece

/-- The characters that pieces stand for, if codes with the property `second` may follow the
first half of a pair. No other code of a half stands for anything. -/
inductive Decodes (second : Nat → Prop) : List Piece → List Char → Prop
  | nil : Decodes second [] []
  | plain {c pieces s} : Decodes second pieces s → Decodes second (.plain c :: pieces) (c :: s)
  | kept {c pieces s} :
      Decodes second pieces s → Decodes second (.kept c :: pieces) ('\\' :: c :: s)
  | letter {c escaped pieces s} :
      Decodes second pieces s → Decodes second (.letter c escaped :: pieces) (escaped :: s)
  | single {digits pieces s} :
      isHighSurrogate (ofHexDigits digits) = false → isLowSurrogate (ofHexDigits digits) = false →
      Decodes second pieces s →
      Decodes second (.unicode digits :: pieces) (Char.ofNat (ofHexDigits digits) :: s)
  | pair {high low pieces s} :
      isHighSurrogate (ofHexDigits high) = true → second (ofHexDigits low) →
      Decodes second pieces s →
      Decodes second (.unicode high :: .unicode low :: pieces)
        (pairChar (ofHexDigits high) (ofHexDigits low) :: s)

/-- The pieces stand for the characters as the reader has it. -/
abbrev ReadAs : List Piece → List Char → Prop := Decodes fun _ => True

/-! ## Codes -/

variable {q : Quotation} {n code value : Nat} {c : Char} {digits cs before rest : List Char}
  {p : Piece} {pieces : List Piece} {s : List Char}

theorem isHighSurrogate_iff : isHighSurrogate code = true ↔ 0xD800 ≤ code ∧ code < 0xDC00 := by
  simp [isHighSurrogate]

theorem isLowSurrogate_iff : isLowSurrogate code = true ↔ 0xDC00 ≤ code ∧ code < 0xE000 := by
  simp [isLowSurrogate]

theorem readHex_append (hlength : digits.length = n)
    (hdigits : ∀ c ∈ digits, (hexDigit? c).isSome = true) (rest : List Char) :
    readHex n code (digits ++ rest) =
      ok (digits.foldl (fun n c => n * 16 + (hexDigit? c).getD 0) code) rest := by
  induction digits generalizing n code with
  | nil =>
    subst hlength
    rfl
  | cons c digits ih =>
    subst hlength
    obtain ⟨digit, hdigit⟩ := Option.isSome_iff_exists.1 (hdigits c List.mem_cons_self)
    have hothers : ∀ d ∈ digits, (hexDigit? d).isSome = true :=
      fun d hd => hdigits d (List.mem_cons_of_mem c hd)
    rw [List.length_cons, List.cons_append, readHex, hdigit, List.foldl_cons, hdigit]
    exact ih rfl hothers

theorem exists_of_readHex (h : readHex n code cs = ok value rest) :
    ∃ digits, cs = digits ++ rest ∧ digits.length = n ∧
      (∀ c ∈ digits, (hexDigit? c).isSome = true) ∧
      value = digits.foldl (fun n c => n * 16 + (hexDigit? c).getD 0) code := by
  fun_induction readHex n code cs with
  | case1 code cs =>
    cases h
    exact ⟨[], rfl, rfl, List.forall_mem_nil _, rfl⟩
  | case2 => cases h
  | case3 n code c cs digit hdigit ih =>
    obtain ⟨digits, rfl, hlength, hdigits, hvalue⟩ := ih h
    refine ⟨c :: digits, rfl, congrArg (· + 1) hlength, ?_, ?_⟩
    · exact List.forall_mem_cons.2 ⟨Option.isSome_iff_exists.2 ⟨digit, hdigit⟩, hdigits⟩
    · rw [List.foldl_cons, hdigit]
      exact hvalue
  | case4 => cases h

theorem hexDigit?_lt {digit : Nat} (h : hexDigit? c = some digit) : digit < 16 := by
  unfold hexDigit? at h
  split at h
  · rename_i hdecimal
    have hle := (isDigit_iff.1 hdecimal).2
    cases h
    simp only [Char.reduceToNat]
    omega
  split at h
  · rename_i hsmall
    have hle : c.toNat ≤ 'f'.toNat := hsmall.2
    cases h
    simp only [Char.reduceToNat] at *
    omega
  split at h
  · rename_i hcapital
    have hle : c.toNat ≤ 'F'.toNat := hcapital.2
    cases h
    simp only [Char.reduceToNat] at *
    omega
  · cases h

/-- The codes of four digits are code units of UTF-16. -/
theorem ofHexDigits_lt (h : Piece.Fits q (.unicode digits)) : ofHexDigits digits < 0x10000 := by
  obtain ⟨hlength, hdigits⟩ := h
  have hstep (cs : List Char) (hcs : ∀ c ∈ cs, (hexDigit? c).isSome = true) (n : Nat) :
      cs.foldl (fun n c => n * 16 + (hexDigit? c).getD 0) n < (n + 1) * 16 ^ cs.length := by
    induction cs generalizing n with
    | nil => simp
    | cons c cs ih =>
      obtain ⟨digit, hdigit⟩ := Option.isSome_iff_exists.1 (hcs c List.mem_cons_self)
      have hlt := hexDigit?_lt hdigit
      have hrest := ih (fun d hd => hcs d (List.mem_cons_of_mem c hd)) (n * 16 + digit)
      rw [List.foldl_cons, hdigit, Option.getD_some, List.length_cons]
      calc _ < (n * 16 + digit + 1) * 16 ^ cs.length := hrest
        _ ≤ ((n + 1) * 16) * 16 ^ cs.length := Nat.mul_le_mul_right _ (by omega)
        _ = (n + 1) * 16 ^ (cs.length + 1) := by rw [Nat.pow_succ', Nat.mul_assoc]
  have hvalue := hstep digits hdigits 0
  rw [hlength] at hvalue
  exact hvalue

/-- A code that is no half of a pair is a character. -/
theorem isValidChar_of_single (hcode : code < 0x10000) (hhigh : isHighSurrogate code = false)
    (hlow : isLowSurrogate code = false) : code.isValidChar := by
  have hhigh := mt isHighSurrogate_iff.2 (Bool.eq_false_iff.1 hhigh)
  have hlow := mt isLowSurrogate_iff.2 (Bool.eq_false_iff.1 hlow)
  unfold Nat.isValidChar
  omega

/-- The first half of a pair is no character by itself. -/
theorem charOfCode_high (h : isHighSurrogate code = true) (rest : List Char) :
    charOfCode code rest = failHere (.surrogate code) rest := by
  obtain ⟨hge, hlt⟩ := isHighSurrogate_iff.1 h
  unfold charOfCode
  rw [if_neg]
  unfold Nat.isValidChar
  omega

theorem charOfCode_low (h : isLowSurrogate code = true) (rest : List Char) :
    charOfCode code rest = failHere (.surrogate code) rest := by
  obtain ⟨hge, hlt⟩ := isLowSurrogate_iff.1 h
  unfold charOfCode
  rw [if_neg]
  unfold Nat.isValidChar
  omega

theorem charOfCode_eq_ok (h : charOfCode code cs = ok c rest) :
    isHighSurrogate code = false ∧ isLowSurrogate code = false ∧
      c = Char.ofNat code ∧ cs = rest := by
  refine ⟨?_, ?_, ?_⟩
  · rw [Bool.eq_false_iff]
    intro hhigh
    rw [charOfCode_high hhigh] at h
    cases h
  · rw [Bool.eq_false_iff]
    intro hlow
    rw [charOfCode_low hlow] at h
    cases h
  · unfold charOfCode at h
    split at h
    · cases h
      exact ⟨rfl, rfl⟩
    · cases h

/-! ## Reading the pieces -/

theorem readBackslash_cons (q : Quotation) (c : Char) (rest : List Char) :
    readBackslash q (c :: rest) =
      if q.keepsBackslash c then ok ['\\', c] rest
      else (readEscape (c :: rest)).map fun escaped => [escaped] := rfl

theorem ne_unicode {escaped : Char} (h : simpleEscape? c = some escaped) : c ≠ 'u' := by
  rintro rfl
  cases h

theorem readBackslash_code (hq : q.Faithful) (cs : List Char) :
    readBackslash q ('u' :: cs) = (readUnicode cs).map fun escaped => [escaped] := by
  have hu : q.keepsBackslash 'u' = false := hq.not_keeps (by simp)
  rw [readBackslash_cons, hu]
  rfl

theorem readHex_digits (h : Piece.Fits q (.unicode digits)) (rest : List Char) :
    readHex 4 0 (digits ++ rest) = ok (ofHexDigits digits) rest := readHex_append h.1 h.2 rest

theorem readUnicode_single (h : Piece.Fits q (.unicode digits))
    (hhigh : isHighSurrogate (ofHexDigits digits) = false)
    (hlow : isLowSurrogate (ofHexDigits digits) = false) (rest : List Char) :
    readUnicode (digits ++ rest) = ok (Char.ofNat (ofHexDigits digits)) rest := by
  unfold readUnicode
  rw [readHex_digits h, bind_ok, if_neg (by rw [hhigh]; decide), charOfCode,
    if_pos (isValidChar_of_single (ofHexDigits_lt h) hhigh hlow)]

theorem readUnicode_pair {high low : List Char} (hhigh : Piece.Fits q (.unicode high))
    (hlow : Piece.Fits q (.unicode low)) (hpair : isHighSurrogate (ofHexDigits high) = true)
    (rest : List Char) :
    readUnicode (high ++ '\\' :: 'u' :: (low ++ rest)) =
      ok (pairChar (ofHexDigits high) (ofHexDigits low)) rest := by
  unfold readUnicode
  rw [readHex_digits hhigh, bind_ok, if_pos hpair]
  show (readHex 4 0 (low ++ rest)).bind _ = _
  rw [readHex_digits hlow, bind_ok]
  rfl

theorem readUnicode_low (h : Piece.Fits q (.unicode digits))
    (hlow : isLowSurrogate (ofHexDigits digits) = true) (rest : List Char) :
    Yields (fun _ => False) (readUnicode (digits ++ rest)) := by
  have hhigh : isHighSurrogate (ofHexDigits digits) = false := by
    have hlow := isLowSurrogate_iff.1 hlow
    rw [Bool.eq_false_iff, Ne, isHighSurrogate_iff]
    omega
  unfold readUnicode
  rw [readHex_digits h, bind_ok, if_neg (by rw [hhigh]; decide), charOfCode_low hlow]
  trivial

theorem readUnicode_alone (h : Piece.Fits q (.unicode digits))
    (hhigh : isHighSurrogate (ofHexDigits digits) = true)
    (hrest : ∀ second, rest ≠ '\\' :: 'u' :: second) :
    Yields (fun _ => False) (readUnicode (digits ++ rest)) := by
  unfold readUnicode
  rw [readHex_digits h, bind_ok, if_pos hhigh]
  split
  · exact absurd rfl (hrest _)
  · rw [charOfCode_high hhigh]
    trivial

/-- In a literal the pieces are read as the characters, whatever is before and behind them. -/
def Adds (q : Quotation) (front : List Piece) (escaped : List Char) : Prop :=
  ∀ before rest, readLiteralBody q before (front.flatMap Piece.text ++ rest) =
    readLiteralBody q (escaped.reverse ++ before) rest

theorem adds_plain (h : Piece.Fits q (.plain c)) : Adds q [.plain c] [c] := by
  obtain ⟨hnewline, hmark, hbackslash⟩ := h
  intro before rest
  conv => lhs; unfold readLiteralBody
  simp [Piece.text, hnewline, hmark, hbackslash]

/-- A piece that starts with a backslash is read by what is read after the backslash. -/
theorem adds_of_readBackslash (hq : q.Faithful) {front : List Piece} {behind escaped : List Char}
    (htext : front.flatMap Piece.text = '\\' :: behind)
    (hread : ∀ rest, readBackslash q (behind ++ rest) = ok escaped rest) :
    Adds q front escaped := by
  intro before rest
  rw [htext, List.cons_append]
  exact readLiteralBody_backslash hq (hread rest) before

theorem adds_kept (hq : q.Faithful) (h : Piece.Fits q (.kept c)) : Adds q [.kept c] ['\\', c] :=
  adds_of_readBackslash hq rfl fun rest => (readBackslash_cons q c rest).trans (if_pos h)

theorem adds_letter (hq : q.Faithful) {escaped : Char} (h : Piece.Fits q (.letter c escaped)) :
    Adds q [.letter c escaped] [escaped] := by
  obtain ⟨hkeeps, hsimple⟩ := h
  apply adds_of_readBackslash hq rfl
  intro rest
  show readBackslash q (c :: rest) = _
  simp [readBackslash_cons, hkeeps, readEscape, ne_unicode hsimple, hsimple]

theorem adds_single (hq : q.Faithful) (h : Piece.Fits q (.unicode digits))
    (hhigh : isHighSurrogate (ofHexDigits digits) = false)
    (hlow : isLowSurrogate (ofHexDigits digits) = false) :
    Adds q [.unicode digits] [Char.ofNat (ofHexDigits digits)] := by
  apply adds_of_readBackslash hq rfl
  intro rest
  show readBackslash q ('u' :: (digits ++ [] ++ rest)) = _
  rw [List.append_nil, readBackslash_code hq, readUnicode_single h hhigh hlow]
  rfl

theorem adds_pair (hq : q.Faithful) {high low : List Char} (hhigh : Piece.Fits q (.unicode high))
    (hlow : Piece.Fits q (.unicode low)) (hpair : isHighSurrogate (ofHexDigits high) = true) :
    Adds q [.unicode high, .unicode low] [pairChar (ofHexDigits high) (ofHexDigits low)] := by
  apply adds_of_readBackslash hq rfl
  intro rest
  show readBackslash q ('u' :: (high ++ '\\' :: 'u' :: (low ++ []) ++ rest)) = _
  rw [List.append_nil, List.append_assoc, readBackslash_code hq]
  show (readUnicode (high ++ '\\' :: 'u' :: (low ++ rest))).map _ = _
  rw [readUnicode_pair hhigh hlow hpair]
  rfl

/-- Up to the closing quote, the pieces are read as the characters. -/
def Closes (q : Quotation) (pieces : List Piece) (s : List Char) : Prop :=
  ∀ before rest, readLiteralBody q before (pieces.flatMap Piece.text ++ q.mark :: rest) =
    ok (before.reverse ++ s) rest

/-- No literal is read of the pieces. -/
def Refused (q : Quotation) (pieces : List Piece) : Prop :=
  ∀ before rest, Yields (fun _ => False)
    (readLiteralBody q before (pieces.flatMap Piece.text ++ q.mark :: rest))

theorem Adds.append {front : List Piece} {escaped : List Char} (h : Adds q front escaped)
    (pieces : List Piece) (before rest : List Char) :
    readLiteralBody q before ((front ++ pieces).flatMap Piece.text ++ rest) =
      readLiteralBody q (escaped.reverse ++ before) (pieces.flatMap Piece.text ++ rest) := by
  rw [List.flatMap_append, List.append_assoc, h]

theorem Adds.closes {front : List Piece} {escaped : List Char} (h : Adds q front escaped)
    (hcloses : Closes q pieces s) : Closes q (front ++ pieces) (escaped ++ s) := by
  intro before rest
  rw [h.append, hcloses, List.reverse_append, List.reverse_reverse, List.append_assoc]

theorem Adds.refused {front : List Piece} {escaped : List Char} (h : Adds q front escaped)
    (hrefused : Refused q pieces) : Refused q (front ++ pieces) := by
  intro before rest
  rw [h.append]
  exact hrefused _ _

theorem closes_of_readAs (hq : q.Faithful) (hfits : ∀ p ∈ pieces, p.Fits q)
    (h : ReadAs pieces s) : Closes q pieces s := by
  induction h with
  | nil =>
    intro before rest
    unfold readLiteralBody
    simp [hq.notNewline]
  | plain _ ih =>
    obtain ⟨hpiece, hfits⟩ := List.forall_mem_cons.1 hfits
    exact (adds_plain hpiece).closes (ih hfits)
  | kept _ ih =>
    obtain ⟨hpiece, hfits⟩ := List.forall_mem_cons.1 hfits
    exact (adds_kept hq hpiece).closes (ih hfits)
  | letter _ ih =>
    obtain ⟨hpiece, hfits⟩ := List.forall_mem_cons.1 hfits
    exact (adds_letter hq hpiece).closes (ih hfits)
  | single hhigh hlow _ ih =>
    obtain ⟨hpiece, hfits⟩ := List.forall_mem_cons.1 hfits
    exact (adds_single hq hpiece hhigh hlow).closes (ih hfits)
  | pair hpair _ _ ih =>
    obtain ⟨hhigh, hfits⟩ := List.forall_mem_cons.1 hfits
    obtain ⟨hlow, hfits⟩ := List.forall_mem_cons.1 hfits
    exact (adds_pair hq hhigh hlow hpair).closes (ih hfits)

theorem readLiteralBody_refused (hq : q.Faithful)
    (h : Yields (fun _ => False) (readBackslash q cs)) (before : List Char) :
    Yields (fun _ => False) (readLiteralBody q before ('\\' :: cs)) := by
  unfold readLiteralBody
  have hmark : '\\' ≠ q.mark := hq.notBackslash.symm
  simp only [show ('\\' : Char) ≠ '\n' by decide, hmark, if_false, if_true]
  split
  · rename_i heq
    exact (h.of_ok heq).elim
  · trivial

/-- A code that cannot be read makes a literal unreadable. -/
theorem refused_of_readUnicode (hq : q.Faithful)
    (h : ∀ rest, Yields (fun _ => False)
      (readUnicode (digits ++ (pieces.flatMap Piece.text ++ q.mark :: rest)))) :
    Refused q (.unicode digits :: pieces) := by
  intro before rest
  show Yields _ (readLiteralBody q before
    ('\\' :: 'u' :: (digits ++ pieces.flatMap Piece.text ++ q.mark :: rest)))
  apply readLiteralBody_refused hq
  rw [readBackslash_code hq, List.append_assoc]
  exact (h rest).map fun _ hfalse => hfalse

/-- Only an escape of a code starts as one. -/
theorem ne_escape (hq : q.Faithful) (hfits : ∀ p ∈ pieces, p.Fits q)
    (hhead : ∀ digits, pieces.head? ≠ some (.unicode digits)) (rest second : List Char) :
    pieces.flatMap Piece.text ++ q.mark :: rest ≠ '\\' :: 'u' :: second := by
  intro heq
  cases pieces with
  | nil => exact hq.notBackslash (List.cons.inj heq).1
  | cons p pieces =>
    have hpiece := hfits p List.mem_cons_self
    cases p with
    | plain c => exact hpiece.2.2 (List.cons.inj heq).1
    | kept c =>
      have hc : c = 'u' := (List.cons.inj (List.cons.inj heq).2).1
      have hu : q.keepsBackslash 'u' = false := hq.not_keeps (by simp)
      rw [Piece.Fits, hc, hu] at hpiece
      cases hpiece
    | letter c escaped => exact ne_unicode hpiece.2 (List.cons.inj (List.cons.inj heq).2).1
    | unicode digits => exact hhead digits rfl

/-- Pieces that the reader takes for no characters are refused. -/
theorem refused_of_not_readAs (hq : q.Faithful) :
    ∀ pieces, (∀ p ∈ pieces, Piece.Fits q p) → (∀ s, ¬ ReadAs pieces s) → Refused q pieces
  | [], _, hnot => (hnot [] .nil).elim
  | .plain c :: pieces, hfits, hnot => by
    obtain ⟨hpiece, hfits⟩ := List.forall_mem_cons.1 hfits
    exact (adds_plain hpiece).refused
      (refused_of_not_readAs hq pieces hfits fun s hs => hnot _ (.plain hs))
  | .kept c :: pieces, hfits, hnot => by
    obtain ⟨hpiece, hfits⟩ := List.forall_mem_cons.1 hfits
    exact (adds_kept hq hpiece).refused
      (refused_of_not_readAs hq pieces hfits fun s hs => hnot _ (.kept hs))
  | .letter c escaped :: pieces, hfits, hnot => by
    obtain ⟨hpiece, hfits⟩ := List.forall_mem_cons.1 hfits
    exact (adds_letter hq hpiece).refused
      (refused_of_not_readAs hq pieces hfits fun s hs => hnot _ (.letter hs))
  | .unicode digits :: pieces, hfits, hnot => by
    obtain ⟨hdigits, hfits⟩ := List.forall_mem_cons.1 hfits
    cases hhigh : isHighSurrogate (ofHexDigits digits) with
    | false =>
      cases hlow : isLowSurrogate (ofHexDigits digits) with
      | false =>
        exact (adds_single hq hdigits hhigh hlow).refused
          (refused_of_not_readAs hq pieces hfits fun s hs => hnot _ (.single hhigh hlow hs))
      | true => exact refused_of_readUnicode hq fun rest => readUnicode_low hdigits hlow _
    | true =>
      by_cases hhead : ∀ low, pieces.head? ≠ some (.unicode low)
      · exact refused_of_readUnicode hq fun rest =>
          readUnicode_alone hdigits hhigh (ne_escape hq hfits hhead rest)
      · obtain ⟨low, hhead⟩ := Classical.not_forall.1 hhead
        obtain ⟨pieces, rfl⟩ := List.head?_eq_some_iff.1 (Classical.not_not.1 hhead)
        obtain ⟨hlow, hfits⟩ := List.forall_mem_cons.1 hfits
        exact (adds_pair hq hdigits hlow hhigh).refused
          (refused_of_not_readAs hq pieces hfits fun s hs => hnot _ (.pair hhigh trivial hs))
termination_by pieces => pieces.length

/-! ## Taking a literal apart -/

theorem exists_of_readUnicode {escaped : Char} (h : readUnicode cs = ok escaped rest) :
    ∃ front : List Piece, (∀ p ∈ front, p.Fits q) ∧
      '\\' :: 'u' :: cs = front.flatMap Piece.text ++ rest ∧
      ∀ pieces s, ReadAs pieces s → ReadAs (front ++ pieces) (escaped :: s) := by
  obtain ⟨code, mid, hhex, h⟩ := exists_of_bind_eq_ok h
  obtain ⟨digits, rfl, hlength, hdigits, hcode⟩ := exists_of_readHex hhex
  have hfits : Piece.Fits q (.unicode digits) := ⟨hlength, hdigits⟩
  change code = ofHexDigits digits at hcode
  subst hcode
  have hsingle (h : charOfCode (ofHexDigits digits) mid = ok escaped rest) :
      ∃ front : List Piece, (∀ p ∈ front, p.Fits q) ∧
        '\\' :: 'u' :: (digits ++ mid) = front.flatMap Piece.text ++ rest ∧
        ∀ pieces s, ReadAs pieces s → ReadAs (front ++ pieces) (escaped :: s) := by
    obtain ⟨hhigh, hlow, rfl, rfl⟩ := charOfCode_eq_ok h
    refine ⟨[.unicode digits], List.forall_mem_singleton.2 hfits, ?_, ?_⟩
    · simp [Piece.text]
    · exact fun _ _ hs => .single hhigh hlow hs
  split at h
  · rename_i hhigh
    split at h
    · rename_i second
      obtain ⟨code, mid, hhex, h⟩ := exists_of_bind_eq_ok h
      obtain ⟨low, rfl, hlength, hdigits, rfl⟩ := exists_of_readHex hhex
      cases h
      refine ⟨[.unicode digits, .unicode low], ?_, ?_, ?_⟩
      · exact List.forall_mem_cons.2 ⟨hfits, List.forall_mem_singleton.2 ⟨hlength, hdigits⟩⟩
      · simp [Piece.text]
      · exact fun _ _ hs => .pair hhigh trivial hs
    · exact hsingle h
  · exact hsingle h

/-- What is read after a backslash is one piece, or two for a pair. -/
theorem exists_of_readBackslash {escaped : List Char}
    (h : readBackslash q cs = ok escaped rest) :
    ∃ front : List Piece, (∀ p ∈ front, p.Fits q) ∧ '\\' :: cs = front.flatMap Piece.text ++ rest ∧
      ∀ pieces s, ReadAs pieces s → ReadAs (front ++ pieces) (escaped ++ s) := by
  cases cs with
  | nil => cases h
  | cons c cs =>
    rw [readBackslash_cons] at h
    split at h
    · rename_i hkeeps
      cases h
      exact ⟨[.kept c], by simpa [Piece.Fits] using hkeeps, rfl, fun _ _ hs => .kept hs⟩
    · rename_i hkeeps
      obtain ⟨e, mid, hescape, hok⟩ := exists_of_bind_eq_ok h
      cases hok
      unfold readEscape at hescape
      simp only at hescape
      split at hescape
      · rename_i hc
        subst hc
        exact exists_of_readUnicode hescape
      · split at hescape
        · rename_i hsimple
          cases hescape
          refine ⟨[.letter c e], ?_, rfl, fun _ _ hs => .letter hs⟩
          simpa [Piece.Fits, hsimple] using hkeeps
        · cases hescape

theorem exists_of_readLiteralBody {chars : List Char}
    (h : readLiteralBody q before cs = ok chars rest) :
    ∃ pieces s, (∀ p ∈ pieces, Piece.Fits q p) ∧ cs = pieces.flatMap Piece.text ++ q.mark :: rest ∧
      ReadAs pieces s ∧ chars = before.reverse ++ s := by
  fun_induction readLiteralBody q before cs with
  | case1 => cases h
  | case2 => cases h
  | case3 before rest' hnewline =>
    cases h
    exact ⟨[], [], List.forall_mem_nil _, rfl, .nil, (List.append_nil _).symm⟩
  | case4 before rest' escaped rest'' hescape _ _ ih =>
    obtain ⟨pieces, s, hfits, rfl, hs, rfl⟩ := ih h
    obtain ⟨front, hfront, htext, hreads⟩ := exists_of_readBackslash hescape
    refine ⟨front ++ pieces, escaped ++ s, ?_, ?_, hreads pieces s hs, ?_⟩
    · intro p hp
      exact (List.mem_append.1 hp).elim (hfront p) (hfits p)
    · rw [htext, List.flatMap_append, List.append_assoc]
    · rw [List.reverse_append, List.reverse_reverse, List.append_assoc]
  | case5 => cases h
  | case6 before c rest' hnewline hmark hbackslash ih =>
    obtain ⟨pieces, s, hfits, rfl, hs, rfl⟩ := ih h
    refine ⟨.plain c :: pieces, c :: s, ?_, rfl, .plain hs, ?_⟩
    · exact List.forall_mem_cons.2 ⟨⟨hnewline, hmark, hbackslash⟩, hfits⟩
    · rw [List.reverse_cons, List.append_assoc]
      rfl

/-- The literal of these pieces. -/
def Quotation.literal (q : Quotation) (pieces : List Piece) : List Char :=
  q.mark :: (pieces.flatMap Piece.text ++ [q.mark])

theorem Quotation.literal_append (q : Quotation) (pieces : List Piece) (rest : List Char) :
    q.literal pieces ++ rest = q.mark :: (pieces.flatMap Piece.text ++ q.mark :: rest) := by
  simp [literal]

/-- A literal is read exactly as what its pieces stand for. -/
theorem readLiteral_eq_ok (hq : q.Faithful) {text : String} :
    readLiteral q cs = ok text rest ↔ ∃ pieces, (∀ p ∈ pieces, Piece.Fits q p) ∧
      cs = q.literal pieces ++ rest ∧ ReadAs pieces text.toList := by
  constructor
  · intro h
    obtain ⟨_, mid, hmark, h⟩ := exists_of_bind_eq_ok h
    obtain ⟨chars, rest', hbody, hok⟩ := exists_of_bind_eq_ok h
    cases hok
    obtain ⟨pieces, s, hfits, rfl, hs, rfl⟩ := exists_of_readLiteralBody hbody
    refine ⟨pieces, hfits, ?_, by simpa using hs⟩
    rw [eq_of_readChar hmark, q.literal_append]
  · rintro ⟨pieces, hfits, rfl, hs⟩
    rw [q.literal_append, readLiteral, readChar_cons, bind_ok, closes_of_readAs hq hfits hs]
    simp

theorem readLiteral_refused (hq : q.Faithful) (hfits : ∀ p ∈ pieces, p.Fits q)
    (hnot : ∀ s, ¬ ReadAs pieces s) (rest : List Char) :
    Yields (fun _ => False) (readLiteral q (q.literal pieces ++ rest)) := by
  rw [q.literal_append, readLiteral, readChar_cons, bind_ok]
  exact (refused_of_not_readAs hq pieces hfits hnot [] rest).map fun _ hfalse => hfalse

end TagGrid.Zinc
