import TagGrid.Error
import TagGrid.Json.Tree

/-! # Reading from the front of JSON text

The parts of JSON text: blanks, words, strings and numbers, and the loops over the
items of arrays and the members of objects. The loops are given a function that reads
one item or member, so that a tree and a value are read from the same text by the same
rules.
-/

namespace TagGrid.Json

/-- What a JSON text holds where something else was expected. -/
inductive Shape where
  | null
  | bool (b : Bool)
  | number (n : JsonNumber)
  | str (s : String)
  | sequence
  | map
  deriving Repr, DecidableEq

def Shape.text : Shape → String
  | null => "null"
  | bool b => "boolean \x60" ++ toString b ++ "\x60"
  | number (.integer i) => "integer \x60" ++ toString i ++ "\x60"
  | number (.float x) => "floating point \x60" ++ String.ofList x.jsonText ++ "\x60"
  | str s => "string " ++ Text.quote s
  | sequence => "sequence"
  | map => "map"

/-- Why reading from JSON text fails. -/
inductive ReadFault where
  | malformed
  /-- The text is JSON of another shape than what is read. -/
  | mismatch (found : Shape) (expected : String)
  | refused (error : Error)
  deriving Repr, DecidableEq

def ReadFault.message : ReadFault → String
  | malformed => "malformed JSON"
  | mismatch found expected => "invalid type: " ++ found.text ++ ", expected " ++ expected
  | refused error => error.message

/-- What was read and the text after it, or why nothing was. -/
abbrev Read (α : Type) := Except ReadFault (α × List Char)

def isJsonBlank (c : Char) : Bool := c == ' ' || c == '\n' || c == '\t' || c == '\r'

def skipJsonBlanks (cs : List Char) : List Char := cs.dropWhile isJsonBlank

def hex4? : List Char → Option (Nat × List Char)
  | a :: b :: c :: d :: rest => do
    let a ← Text.hexDigit? a
    let b ← Text.hexDigit? b
    let c ← Text.hexDigit? c
    let d ← Text.hexDigit? d
    return (((a * 16 + b) * 16 + c) * 16 + d, rest)
  | _ => none

theorem length_hex4? {n : Nat} {cs rest : List Char} (h : hex4? cs = some (n, rest)) :
    rest.length < cs.length := by
  unfold hex4? at h
  split at h
  · simp only [Option.bind_eq_bind, Option.pure_def, Option.bind_eq_some_iff, Option.some.injEq,
      Prod.mk.injEq] at h
    obtain ⟨_, _, _, _, _, _, _, _, _, rfl⟩ := h
    simp only [List.length_cons]
    omega
  · simp at h

/-- The character that an escape of one letter stands for. -/
def letterEscape? (c : Char) : Option Char :=
  if c = '"' ∨ c = '\\' ∨ c = '/' then some c
  else if c = 'b' then some '\x08'
  else if c = 'f' then some '\x0c'
  else if c = 'n' then some '\n'
  else if c = 'r' then some '\r'
  else if c = 't' then some '\t'
  else none

/-- Reads an escape after its backslash. Surrogates stand in pairs only. -/
def readEscape? : List Char → Option (Char × List Char)
  | 'u' :: cs =>
    match hex4? cs with
    | none => none
    | some (high, rest) =>
      if 0xD800 ≤ high ∧ high < 0xDC00 then
        match rest with
        | '\\' :: 'u' :: second =>
          match hex4? second with
          | some (low, rest) =>
            if 0xDC00 ≤ low ∧ low < 0xE000 then
              some (Char.ofNat (0x10000 + (high - 0xD800) * 0x400 + (low - 0xDC00)), rest)
            else none
          | none => none
        | _ => none
      else if 0xDC00 ≤ high ∧ high < 0xE000 then none
      else some (Char.ofNat high, rest)
  | c :: cs => (letterEscape? c).map fun escaped => (escaped, cs)
  | [] => none

theorem length_readEscape? {c : Char} {cs rest : List Char}
    (h : readEscape? cs = some (c, rest)) : rest.length < cs.length := by
  unfold readEscape? at h
  split at h
  · rename_i tail
    split at h
    · simp at h
    · rename_i high mid hmid
      have h1 := length_hex4? hmid
      split at h
      · split at h
        · rename_i second
          split at h
          · rename_i low after hlow
            have h2 := length_hex4? hlow
            split at h
            · simp only [Option.some.injEq, Prod.mk.injEq] at h
              obtain ⟨_, rfl⟩ := h
              simp only [List.length_cons] at *
              omega
            · simp at h
          · simp at h
        · simp at h
      · split at h
        · simp at h
        · simp only [Option.some.injEq, Prod.mk.injEq] at h
          obtain ⟨_, rfl⟩ := h
          simp only [List.length_cons]
          omega
  · simp only [Option.map_eq_some_iff, Prod.mk.injEq] at h
    obtain ⟨_, _, _, rfl⟩ := h
    simp
  · simp at h

/-- Reads a string after its opening quote, adding to the characters before, which are in
reverse. -/
def readStringBody? (before cs : List Char) : Option (String × List Char) :=
  match cs with
  | [] => none
  | c :: rest =>
    if c = '"' then some (String.ofList before.reverse, rest)
    else if c = '\\' then
      match _h : readEscape? rest with
      | some (escaped, rest) => readStringBody? (escaped :: before) rest
      | none => none
    else if c < ' ' then none
    else readStringBody? (c :: before) rest
termination_by cs.length
decreasing_by
  · have := length_readEscape? _h; simp only [List.length_cons]; omega
  · simp

def readString (cs : List Char) : Read String :=
  match cs with
  | '"' :: rest =>
    match readStringBody? [] rest with
    | some result => .ok result
    | none => .error .malformed
  | _ => .error .malformed

/-- The limit of the digits that a number keeps. -/
def significandLimit : Nat := Nat.pow 2 64

/-- Reads digits into a significand of 64 bits, which was `significand` before: the
significand, the number of digits that it took, and the number of digits left out after
the first one that did not fit. -/
def readDigits (significand taken left : Nat) : List Char → Nat × Nat × Nat × List Char
  | [] => (significand, taken, left, [])
  | c :: cs =>
    if c.isDigit then
      let grown := significand * 10 + (c.toNat - '0'.toNat)
      if left = 0 ∧ grown < significandLimit then readDigits grown (taken + 1) 0 cs
      else readDigits significand taken (left + 1) cs
    else (significand, taken, left, c :: cs)

/-- A significand times a power of ten as a double, the power and the product rounded
separately; a number past the largest double has none. Powers beyond `10³⁰⁸` are taken
in two steps. -/
def scale? (significand : Nat) (exponent : Int) : Option Double :=
  let power (n : Nat) : Double := Double.ofNat (Nat.pow 10 n)
  let f := Double.ofNat significand
  if significand = 0 then some f
  else if 308 < exponent then none
  else if 0 ≤ exponent then
    let product := f.mul (power exponent.toNat)
    if product.isFinite then some product else none
  else if -308 ≤ exponent then some (f.div (power (-exponent).toNat))
  else if -616 ≤ exponent then some ((f.div (power 308)).div (power (-exponent - 308).toNat))
  else some (Double.zero false)

/-- A double from its sign, its significand and its power of ten. -/
def floatNumber (negative : Bool) (significand : Nat) (exponent : Int) :
    Except ReadFault JsonNumber :=
  match scale? significand exponent with
  | some x => .ok (.float (if negative then x.neg else x))
  | none => .error .malformed

/-- Reads the exponent of a number after its `e`, if there is one, and makes the number. -/
def readExponent (negative : Bool) (significand : Nat) (exponent : Int) (cs : List Char) :
    Read JsonNumber :=
  let finish (exponent : Int) (rest : List Char) : Read JsonNumber :=
    (floatNumber negative significand exponent).map fun n => (n, rest)
  let digits (sign : Int) (cs : List Char) : Read JsonNumber :=
    let ds := cs.takeWhile Char.isDigit
    if ds = [] then .error .malformed
    else finish (exponent + sign * Decimal.ofDigits ds) (cs.dropWhile Char.isDigit)
  match cs with
  | c :: rest =>
    if c = 'e' ∨ c = 'E' then
      match rest with
      | '+' :: rest => digits 1 rest
      | '-' :: rest => digits (-1) rest
      | rest => digits 1 rest
    else finish exponent cs
  | [] => finish exponent []

/-- Reads what follows the integer part of a number. Without a point, an exponent or
digits that did not fit, the number is an integer if it fits into 64 bits. -/
def readAfterInteger (negative : Bool) (significand left : Nat) (cs : List Char) :
    Read JsonNumber :=
  match cs with
  | '.' :: rest =>
    match readDigits significand 0 0 rest with
    | (significand', taken, dropped, rest) =>
      if taken = 0 ∧ dropped = 0 then .error .malformed
      else readExponent negative significand' ((left : Int) - taken) rest
  | cs =>
    if left = 0 ∧ ¬ (cs.head? = some 'e' ∨ cs.head? = some 'E') then
      if ¬ negative then .ok (.integer significand, cs)
      else if significand = 0 ∨ Nat.pow 2 63 < significand then
        .ok (.float (Double.ofNat significand).neg, cs)
      else .ok (.integer (-significand), cs)
    else readExponent negative significand left cs

/-- Reads a number. Its integer part has no leading zeros. -/
def readNumber (cs : List Char) : Read JsonNumber :=
  let unsigned (negative : Bool) (cs : List Char) : Read JsonNumber :=
    match cs with
    | '0' :: rest =>
      if rest.head?.any Char.isDigit then .error .malformed
      else readAfterInteger negative 0 0 rest
    | c :: rest =>
      if c.isDigit then
        match readDigits 0 0 0 (c :: rest) with
        | (significand, _, left, rest) => readAfterInteger negative significand left rest
      else .error .malformed
    | [] => .error .malformed
  match cs with
  | '-' :: rest => unsigned true rest
  | cs => unsigned false cs

/-- A value that is not an array or an object. -/
inductive Scalar where
  | null
  | bool (b : Bool)
  | number (n : JsonNumber)
  | str (s : String)
  deriving Repr, DecidableEq

def Scalar.shape : Scalar → Shape
  | null => .null
  | bool b => .bool b
  | number n => .number n
  | str s => .str s

/-- Reads a value that is not an array or an object. -/
def readJsonScalar (cs : List Char) : Read Scalar :=
  match cs with
  | 'n' :: 'u' :: 'l' :: 'l' :: rest => .ok (.null, rest)
  | 't' :: 'r' :: 'u' :: 'e' :: rest => .ok (.bool true, rest)
  | 'f' :: 'a' :: 'l' :: 's' :: 'e' :: rest => .ok (.bool false, rest)
  | '"' :: _ => (readString cs).map fun (s, rest) => (.str s, rest)
  | cs => (readNumber cs).map fun (n, rest) => (.number n, rest)

/-- Reads the items of an array from the first one up to the closing bracket. -/
def readItems {α : Type} (item : List Char → Read α) (cs : List Char) : Read (List α) :=
  match item cs with
  | .error fault => .error fault
  | .ok (a, rest) =>
    match skipJsonBlanks rest with
    | ']' :: rest => .ok ([a], rest)
    | ',' :: rest =>
      if rest.length < cs.length then
        match readItems item rest with
        | .ok (items, rest) => .ok (a :: items, rest)
        | .error fault => .error fault
      else .error .malformed
    | _ => .error .malformed
termination_by cs.length

def readArray {α : Type} (item : List Char → Read α) (cs : List Char) : Read (List α) :=
  match skipJsonBlanks cs with
  | ']' :: rest => .ok ([], rest)
  | start => readItems item start

/-- Reads the name of a member and the colon after it. -/
def readMemberName (cs : List Char) : Read String :=
  match readString (skipJsonBlanks cs) with
  | .error fault => .error fault
  | .ok (name, rest) =>
    match skipJsonBlanks rest with
    | ':' :: rest => .ok (name, rest)
    | _ => .error .malformed

/-- Reads the members of an object from the first one up to the closing brace. Each
member changes what was made of those before it. -/
def readMembers {σ : Type} (member : σ → String → List Char → Read σ) (before : σ)
    (cs : List Char) : Read σ :=
  match readMemberName cs with
  | .error fault => .error fault
  | .ok (name, rest) =>
    match member before name rest with
    | .error fault => .error fault
    | .ok (state, rest) =>
      match skipJsonBlanks rest with
      | '\x7d' :: rest => .ok (state, rest)
      | ',' :: rest =>
        if rest.length < cs.length then readMembers member state rest else .error .malformed
      | _ => .error .malformed
termination_by cs.length

def readObject {σ : Type} (member : σ → String → List Char → Read σ) (start : σ)
    (cs : List Char) : Read σ :=
  match skipJsonBlanks cs with
  | '\x7d' :: rest => .ok (start, rest)
  | first => readMembers member start first

/-- Reads the end of the text after what was read. -/
def readToEnd {α : Type} : Read α → Except ReadFault α
  | .ok (a, rest) => if skipJsonBlanks rest = [] then .ok a else .error .malformed
  | .error fault => .error fault

/-- How deeply arrays and objects may be nested. -/
def depthLimit : Nat := 127

/-! ## Trees -/

def ofScalar : Scalar → Json
  | .null => null
  | .bool b => bool b
  | .number n => number n
  | .str s => str s

/-- Reads a tree in which arrays and objects are nested at most so deeply. A member
whose name comes again takes the later value. -/
def readTree : Nat → List Char → Read Json
  | depth, cs =>
    match skipJsonBlanks cs, depth with
    | '[' :: _, 0 => .error .malformed
    | '\x7b' :: _, 0 => .error .malformed
    | '[' :: rest, depth + 1 =>
      (readArray (readTree depth) rest).map fun (items, rest) => (array items, rest)
    | '\x7b' :: rest, depth + 1 =>
      (readObject
        (fun members name cs =>
          (readTree depth cs).map fun (value, rest) => (setMember members name value, rest))
        [] rest).map fun (members, rest) => (object members, rest)
    | start, _ => (readJsonScalar start).map fun (scalar, rest) => (ofScalar scalar, rest)

def ofText? (text : String) : Except ReadFault Json := readToEnd (readTree depthLimit text.toList)

/-- The tree that a text is, or an error. -/
def parse? (text : String) : Except Error Json :=
  match ofText? text with
  | .ok tree => .ok tree
  | .error fault => .error (.json fault.message)

end TagGrid.Json
