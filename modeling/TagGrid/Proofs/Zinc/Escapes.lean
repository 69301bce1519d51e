import TagGrid.Proofs.Reader.ErrorLines
import TagGrid.Proofs.Zinc.Pieces
import TagGrid.Proofs.Zinc.Tags

/-! # Escapes of codes

A literal names code units of UTF-16, and what the reader makes of it is the text with these
code units exactly if each first half of a surrogate pair has a second half behind it. The
reader completes a first half with any code, and refuses every other half.
-/

namespace TagGrid

/-- The code units of a character in UTF-16. -/
def Text.utf16 (c : Char) : List Nat :=
  if c.toNat < 0x10000 then [c.toNat]
  else [0xD800 + (c.toNat - 0x10000) / 0x400, 0xDC00 + (c.toNat - 0x10000) % 0x400]

namespace Zinc

open Text Outcome

/-- The code units of UTF-16 that a piece names. -/
def Piece.units : Piece → List Nat
  | plain c => utf16 c
  | kept c => utf16 '\\' ++ utf16 c
  | letter _ escaped => utf16 escaped
  | unicode digits => [ofHexDigits digits]

/-- The pieces stand for the characters as UTF-16 has it. -/
abbrev WellFormedAs : List Piece → List Char → Prop :=
  Decodes fun code => isLowSurrogate code = true

variable {q : Quotation} {code : Nat} {cs rest : List Char} {pieces : List Piece} {s : List Char}

/-! ## Pairs -/

theorem toNat_ofNat (h : code.isValidChar) : (Char.ofNat code).toNat = code := by
  rw [Char.ofNat, dif_pos h]
  rfl

theorem utf16_of_single (hcode : code < 0x10000) (hhigh : isHighSurrogate code = false)
    (hlow : isLowSurrogate code = false) : utf16 (Char.ofNat code) = [code] := by
  unfold utf16
  rw [toNat_ofNat (isValidChar_of_single hcode hhigh hlow), if_pos hcode]

/-- The first half of a pair is kept, whatever stands for the second. -/
theorem utf16_pairChar {high low : Nat} (hhigh : isHighSurrogate high = true) :
    utf16 (pairChar high low) = [high, 0xDC00 + low % 0x400] := by
  obtain ⟨hge, hlt⟩ := isHighSurrogate_iff.1 hhigh
  have hlow : low % 0x400 < 0x400 := Nat.mod_lt _ (by decide)
  have hvalid : (0x10000 + (high - 0xD800) * 0x400 + low % 0x400).isValidChar := by
    unfold Nat.isValidChar
    omega
  unfold utf16 pairChar
  rw [toNat_ofNat hvalid, if_neg (by omega)]
  have hfirst :
      0xD800 + (0x10000 + (high - 0xD800) * 0x400 + low % 0x400 - 0x10000) / 0x400 = high := by
    omega
  have hsecond :
      (0x10000 + (high - 0xD800) * 0x400 + low % 0x400 - 0x10000) % 0x400 = low % 0x400 := by
    omega
  rw [hfirst, hsecond]

/-- A second half is what its ten low bits make of it. -/
theorem isLowSurrogate_iff_mod : isLowSurrogate code = true ↔ 0xDC00 + code % 0x400 = code := by
  rw [isLowSurrogate_iff]
  omega

/-- Well-formed pieces stand for the characters that UTF-16 assigns to them. -/
theorem utf16_of_wellFormedAs (hfits : ∀ p ∈ pieces, p.Fits q) (h : WellFormedAs pieces s) :
    s.flatMap utf16 = pieces.flatMap Piece.units := by
  induction h with
  | nil => rfl
  | plain _ ih =>
    rw [List.flatMap_cons, List.flatMap_cons, ih (List.forall_mem_cons.1 hfits).2]
    rfl
  | kept _ ih =>
    rw [List.flatMap_cons, List.flatMap_cons, List.flatMap_cons,
      ih (List.forall_mem_cons.1 hfits).2, ← List.append_assoc]
    rfl
  | letter _ ih =>
    rw [List.flatMap_cons, List.flatMap_cons, ih (List.forall_mem_cons.1 hfits).2]
    rfl
  | single hhigh hlow _ ih =>
    obtain ⟨hdigits, hfits⟩ := List.forall_mem_cons.1 hfits
    rw [List.flatMap_cons, List.flatMap_cons, ih hfits,
      utf16_of_single (ofHexDigits_lt hdigits) hhigh hlow]
    rfl
  | pair hhigh hlow _ ih =>
    obtain ⟨-, hfits⟩ := List.forall_mem_cons.1 hfits
    rw [List.flatMap_cons, List.flatMap_cons, List.flatMap_cons,
      ih (List.forall_mem_cons.1 hfits).2, utf16_pairChar hhigh, isLowSurrogate_iff_mod.1 hlow]
    rfl

/-- Pieces that the reader takes for the characters that UTF-16 assigns to them are
well-formed. -/
theorem wellFormedAs_of_utf16 (hfits : ∀ p ∈ pieces, p.Fits q) (h : ReadAs pieces s)
    (hunits : s.flatMap utf16 = pieces.flatMap Piece.units) : WellFormedAs pieces s := by
  induction h with
  | nil => exact .nil
  | plain _ ih =>
    rw [List.flatMap_cons, List.flatMap_cons] at hunits
    exact .plain (ih (List.forall_mem_cons.1 hfits).2 (List.append_cancel_left hunits))
  | kept _ ih =>
    rw [List.flatMap_cons, List.flatMap_cons, List.flatMap_cons, ← List.append_assoc] at hunits
    exact .kept (ih (List.forall_mem_cons.1 hfits).2 (List.append_cancel_left hunits))
  | letter _ ih =>
    rw [List.flatMap_cons, List.flatMap_cons] at hunits
    exact .letter (ih (List.forall_mem_cons.1 hfits).2 (List.append_cancel_left hunits))
  | single hhigh hlow _ ih =>
    obtain ⟨hdigits, hfits⟩ := List.forall_mem_cons.1 hfits
    rw [List.flatMap_cons, List.flatMap_cons,
      utf16_of_single (ofHexDigits_lt hdigits) hhigh hlow] at hunits
    exact .single hhigh hlow (ih hfits (List.append_cancel_left hunits))
  | pair hhigh _ _ ih =>
    obtain ⟨-, hfits⟩ := List.forall_mem_cons.1 hfits
    rw [List.flatMap_cons, List.flatMap_cons, List.flatMap_cons, utf16_pairChar hhigh] at hunits
    obtain ⟨-, hunits⟩ := List.cons.inj hunits
    obtain ⟨hlow, hunits⟩ := List.cons.inj hunits
    exact .pair hhigh (isLowSurrogate_iff_mod.2 hlow) (ih (List.forall_mem_cons.1 hfits).2 hunits)

/-! ## Strings and URIs -/

/-- The kinds of literals. -/
inductive Quoted where
  | str
  | uri
  deriving Repr, DecidableEq

namespace Quoted

variable {kind : Quoted}

def quotation : Quoted → Quotation
  | str => strQuotation
  | uri => uriQuotation

def value : Quoted → String → Value
  | str => .str
  | uri => .uri

theorem faithful : (kind : Quoted) → kind.quotation.Faithful
  | str => faithful_strQuotation
  | uri => faithful_uriQuotation

/-- The quote of a literal tells its kind. -/
theorem readValue_literal (kind : Quoted) (setting : Setting) (pieces : List Piece) :
    readValue setting (kind.quotation.literal pieces) =
      (readLiteral kind.quotation (kind.quotation.literal pieces)).map
        fun s => some (kind.value s) := by
  cases kind with
  | str => exact readValue_cons (c := '"') (by decide) setting _
  | uri => exact readValue_cons (c := '\x60') (by decide) setting _

theorem skipBlanks_literal (kind : Quoted) (pieces : List Piece) :
    skipBlanks (kind.quotation.literal pieces) = kind.quotation.literal pieces := by
  cases kind with
  | str => exact skipBlanks_cons _ (by decide)
  | uri => exact skipBlanks_cons _ (by decide)

theorem toValue?_of_readAs {text : String} (hfits : ∀ p ∈ pieces, p.Fits kind.quotation)
    (h : ReadAs pieces text.toList) :
    toValue? (String.ofList (kind.quotation.literal pieces)) = .ok (some (kind.value text)) := by
  apply toValue?_of_readValue (kind.skipBlanks_literal pieces)
  have hread := (readLiteral_eq_ok kind.faithful).2
    ⟨pieces, hfits, (List.append_nil _).symm, h⟩
  rw [readValue_literal, hread]
  rfl

/-- A text that is no value is refused with an error of the text. -/
theorem exists_parse_error {text : String} (h : ∀ value, toValue? text ≠ .ok value) :
    ∃ line message, toValue? text = .error (.parse line message) := by
  cases hvalue : toValue? text with
  | ok value => exact absurd hvalue (h value)
  | error e =>
    obtain ⟨line, message, rfl, -, -⟩ :=
      (Reader.ofText text).ask_error_located (q := .scalar) hvalue
    exact ⟨line, message, rfl⟩

theorem toValue?_refused (hfits : ∀ p ∈ pieces, p.Fits kind.quotation)
    (hnot : ∀ s, ¬ ReadAs pieces s) :
    ∃ line message, toValue? (String.ofList (kind.quotation.literal pieces)) =
      .error (.parse line message) := by
  apply exists_parse_error
  intro value hvalue
  obtain ⟨rest, hread⟩ := Reader.exists_readValue_of_scalar hvalue
  have hrefused := readLiteral_refused kind.faithful hfits hnot []
  rw [List.append_nil] at hrefused
  have hstart : skipBlanks (Reader.ofText (String.ofList (kind.quotation.literal pieces))).rest =
      kind.quotation.literal pieces := by
    rw [Reader.ofText, String.toList_ofList, skipBlanks_literal]
  rw [hstart, readValue_literal] at hread
  exact ((hrefused.map (q := fun _ => False) fun _ hfalse => hfalse).of_ok hread).elim

end Quoted

/-- Literals are read exactly as what their pieces stand for, where any code may follow the
first half of a surrogate pair. What is read has the code units that the pieces name exactly if
each such code is a second half. A literal in which another escape names a half of a pair is
refused with an error of its text. -/
theorem literals_and_code_units (kind : Quoted) :
    (∀ cs text rest, readLiteral kind.quotation cs = ok text rest ↔
      ∃ pieces, (∀ p ∈ pieces, Piece.Fits kind.quotation p) ∧
        cs = kind.quotation.literal pieces ++ rest ∧ ReadAs pieces text.toList) ∧
    ∀ pieces, (∀ p ∈ pieces, Piece.Fits kind.quotation p) →
      (∀ text : String, ReadAs pieces text.toList →
        toValue? (String.ofList (kind.quotation.literal pieces)) = .ok (some (kind.value text)) ∧
        (text.toList.flatMap utf16 = pieces.flatMap Piece.units ↔
          WellFormedAs pieces text.toList)) ∧
      ((∀ s, ¬ ReadAs pieces s) →
        ∃ line message, toValue? (String.ofList (kind.quotation.literal pieces)) =
          .error (.parse line message)) := by
  refine ⟨fun cs text rest => readLiteral_eq_ok kind.faithful, fun pieces hfits => ⟨?_, ?_⟩⟩
  · intro text hreads
    refine ⟨Quoted.toValue?_of_readAs hfits hreads, ?_, utf16_of_wellFormedAs hfits⟩
    exact wellFormedAs_of_utf16 hfits hreads
  · exact Quoted.toValue?_refused hfits

/-- The first half of the pair of a face. -/
def faceHigh : Piece := .unicode ['d', '8', '3', 'd']

/-- A whole pair is read as its character, and its first half alone is refused. -/
theorem face_and_half :
    ((∀ p ∈ [faceHigh, .unicode ['d', 'e', '0', '0']], p.Fits strQuotation) ∧
      ReadAs [faceHigh, .unicode ['d', 'e', '0', '0']] "😀".toList ∧
      toValue? "\"\\ud83d\\ude00\"" = .ok (some (.str "😀"))) ∧
    (∀ p ∈ [faceHigh], p.Fits uriQuotation) ∧ (∀ s, ¬ ReadAs [faceHigh] s) ∧
    ∃ line message, toValue? "\x60\\ud83d\x60" = .error (.parse line message) := by
  have hhigh : faceHigh.Fits strQuotation := ⟨rfl, List.all_eq_true.1 rfl⟩
  have hlow : Piece.Fits strQuotation (.unicode ['d', 'e', '0', '0']) :=
    ⟨rfl, List.all_eq_true.1 rfl⟩
  have hpair : ∀ p ∈ [faceHigh, .unicode ['d', 'e', '0', '0']], p.Fits strQuotation :=
    List.forall_mem_cons.2 ⟨hhigh, List.forall_mem_singleton.2 hlow⟩
  have hchar : pairChar (ofHexDigits ['d', '8', '3', 'd']) (ofHexDigits ['d', 'e', '0', '0']) =
      '😀' := by decide
  have hreads : ReadAs [faceHigh, .unicode ['d', 'e', '0', '0']] "😀".toList := by
    show ReadAs _ ['😀']
    rw [← hchar]
    exact .pair (by decide) trivial .nil
  have hhalf : ∀ p ∈ [faceHigh], p.Fits uriQuotation :=
    List.forall_mem_singleton.2 ⟨rfl, List.all_eq_true.1 rfl⟩
  have hnot : ∀ s, ¬ ReadAs [faceHigh] s := by
    intro s h
    cases h with
    | single hhigh => exact absurd hhigh (by decide)
  refine ⟨⟨hpair, hreads, ?_⟩, hhalf, hnot, ?_⟩
  · exact (((literals_and_code_units .str).2 _ hpair).1 "😀" hreads).1
  · exact ((literals_and_code_units .uri).2 _ hhalf).2 hnot

/-- A first half with the code of a letter behind it is accepted as a character that it does
not name. -/
theorem letter_completes_pair :
    toValue? "\"\\ud83d\\u0041\"" = .ok (some (.str "👁")) ∧
    "\"\\ud83d\\u0041\"".toList =
      strQuotation.literal [faceHigh, .unicode ['0', '0', '4', '1']] ∧
    (∀ p ∈ [faceHigh, .unicode ['0', '0', '4', '1']], p.Fits strQuotation) ∧
    ∀ s, ¬ WellFormedAs [faceHigh, .unicode ['0', '0', '4', '1']] s := by
  have hhigh : faceHigh.Fits strQuotation := ⟨rfl, List.all_eq_true.1 rfl⟩
  have hlow : Piece.Fits strQuotation (.unicode ['0', '0', '4', '1']) :=
    ⟨rfl, List.all_eq_true.1 rfl⟩
  have hfits : ∀ p ∈ [faceHigh, .unicode ['0', '0', '4', '1']], p.Fits strQuotation :=
    List.forall_mem_cons.2 ⟨hhigh, List.forall_mem_singleton.2 hlow⟩
  have hchar : pairChar (ofHexDigits ['d', '8', '3', 'd']) (ofHexDigits ['0', '0', '4', '1']) =
      '👁' := by decide
  have hreads : ReadAs [faceHigh, .unicode ['0', '0', '4', '1']] "👁".toList := by
    show ReadAs _ ['👁']
    rw [← hchar]
    exact .pair (by decide) trivial .nil
  have hread := @Quoted.toValue?_of_readAs _ .str "👁" hfits hreads
  refine ⟨hread, rfl, hfits, ?_⟩
  intro s h
  cases h with
  | single hhigh => exact absurd hhigh (by decide)
  | pair _ hlow => exact absurd hlow (by decide)

end Zinc

end TagGrid
