import TagGrid.Zinc.Outcome

/-! # Reading quoted literals

Strings and URIs are read up to their closing quote. Escapes stand for single
characters; an escape of a high surrogate takes a second escape to make one
character.
-/

namespace TagGrid.Zinc

open Outcome

/-- Reads so many hexadecimal digits after those that gave `code`. -/
def readHex : Nat → Nat → List Char → Outcome Nat
  | 0, code, cs => ok code cs
  | _ + 1, _, [] => failHere .hexDigits []
  | n + 1, code, c :: cs =>
    match Text.hexDigit? c with
    | some digit => readHex n (code * 16 + digit) cs
    | none => failHere .hexDigits cs

/-- Whether a code is one of the first halves of a surrogate pair. -/
def isHighSurrogate (code : Nat) : Bool := 0xD800 ≤ code && code < 0xDC00

def charOfCode (code : Nat) (rest : List Char) : Outcome Char :=
  if code.isValidChar then ok (Char.ofNat code) rest else failHere (.surrogate code) rest

/-- Reads the codes of an escape after `\u`. Of the second code of a pair only the ten
low bits count. -/
def readUnicode (cs : List Char) : Outcome Char :=
  (readHex 4 0 cs).bind fun high rest =>
    if isHighSurrogate high then
      match rest with
      | '\\' :: 'u' :: second =>
        (readHex 4 0 second).bind fun low rest =>
          ok (Char.ofNat (0x10000 + (high - 0xD800) * 0x400 + low % 0x400)) rest
      | rest => charOfCode high rest
    else charOfCode high rest

/-- The character that an escape of one letter stands for. -/
def simpleEscape? (c : Char) : Option Char :=
  if c = 'b' then some '\x08'
  else if c = 'f' then some '\x0c'
  else if c = 'n' then some '\n'
  else if c = 'r' then some '\r'
  else if c = 't' then some '\t'
  else if c = '"' ∨ c = '\\' ∨ c = '$' ∨ c = '\'' ∨ c = '\x60' then some c
  else none

def readEscape : List Char → Outcome Char
  | [] => failHere .endInEscape []
  | c :: cs =>
    if c = 'u' then readUnicode cs
    else
      match simpleEscape? c with
      | some escaped => ok escaped cs
      | none => failHere (.escape c) cs

/-- A kind of literal: its quote, its faults, and the characters before which a
backslash is kept and means itself. -/
structure Quotation where
  mark : Char
  ending : Fault
  lineEnd : Fault
  keepsBackslash : Char → Bool

def strQuotation : Quotation := ⟨'"', .endInStr, .lineEndInStr, fun _ => false⟩

/-- URIs keep the backslash before the characters that separate the parts of a URI. -/
def uriQuotation : Quotation :=
  ⟨'\x60', .endInUri, .lineEndInUri,
    fun c => [':', '/', '?', '#', '[', ']', '@', '&', '=', ';'].contains c⟩

/-- Reads the part of a literal that a backslash starts: the characters it stands for. -/
def readBackslash (q : Quotation) (cs : List Char) : Outcome (List Char) :=
  match cs with
  | c :: rest =>
    if q.keepsBackslash c then ok ['\\', c] rest
    else (readEscape cs).map fun escaped => [escaped]
  | [] => (readEscape []).map fun escaped => [escaped]

theorem length_readHex {n code value : Nat} {cs rest : List Char}
    (h : readHex n code cs = ok value rest) : rest.length + n = cs.length := by
  fun_induction readHex n code cs with
  | case1 code cs => cases h; rfl
  | case2 => simp [failHere] at h
  | case3 n code c cs digit _ ih => have := ih h; simp only [List.length_cons]; omega
  | case4 => simp [failHere] at h

theorem length_readUnicode_le {c : Char} {cs rest : List Char}
    (h : readUnicode cs = ok c rest) : rest.length ≤ cs.length := by
  unfold readUnicode at h
  cases hhex : readHex 4 0 cs with
  | fail => simp [hhex, Outcome.bind] at h
  | ok high mid =>
    have hmid := length_readHex hhex
    simp only [hhex, Outcome.bind] at h
    have hsingle : charOfCode high mid = ok c rest → rest.length ≤ cs.length := by
      intro hc
      unfold charOfCode at hc
      split at hc
      · cases hc; omega
      · simp [failHere] at hc
    split at h
    · split at h
      · rename_i second
        cases hlow : readHex 4 0 second with
        | fail => simp [hlow] at h
        | ok low rest' =>
          have := length_readHex hlow
          simp only [hlow] at h
          cases h
          simp only [List.length_cons] at hmid
          omega
      · exact hsingle h
    · exact hsingle h

theorem length_readEscape_lt {c : Char} {cs rest : List Char}
    (h : readEscape cs = ok c rest) : rest.length < cs.length := by
  unfold readEscape at h
  split at h
  · simp [failHere] at h
  · split at h
    · have := length_readUnicode_le h
      simp only [List.length_cons]; omega
    · split at h
      · cases h; simp
      · simp [failHere] at h

theorem length_readBackslash_lt {q : Quotation} {escaped cs rest : List Char}
    (h : readBackslash q cs = ok escaped rest) : rest.length < cs.length := by
  have hescape : ∀ {cs : List Char},
      ((readEscape cs).map fun c => [c]) = ok escaped rest → rest.length < cs.length := by
    intro cs h
    cases he : readEscape cs with
    | fail => simp [he, Outcome.map, Outcome.bind] at h
    | ok c rest' =>
      have := length_readEscape_lt he
      simp only [he, Outcome.map, Outcome.bind] at h
      cases h
      omega
  unfold readBackslash at h
  split at h
  · split at h
    · cases h; simp
    · exact hescape h
  · exact hescape h

/-- Reads a literal after its opening quote, adding to the characters before, which are
in reverse. -/
def readLiteralBody (q : Quotation) (before cs : List Char) : Outcome (List Char) :=
  match cs with
  | [] => failHere q.ending []
  | c :: rest =>
    if c = '\n' then failHere q.lineEnd (c :: rest)
    else if c = q.mark then ok before.reverse rest
    else if c = '\\' then
      match _h : readBackslash q rest with
      | ok escaped rest' => readLiteralBody q (escaped.reverse ++ before) rest'
      | fail fault place rest' => fail fault place rest'
    else readLiteralBody q (c :: before) rest
termination_by cs.length
decreasing_by
  · have := length_readBackslash_lt _h; simp only [List.length_cons]; omega
  · simp

def readLiteral (q : Quotation) (cs : List Char) : Outcome String :=
  (readChar q.mark cs).bind fun _ rest =>
    (readLiteralBody q [] rest).map String.ofList

def readStr (cs : List Char) : Outcome String := readLiteral strQuotation cs

def readUri (cs : List Char) : Outcome String := readLiteral uriQuotation cs

end TagGrid.Zinc
