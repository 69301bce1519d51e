import TagGrid.Value.Basic
import TagGrid.Zinc.TemporalReader

/-! # Literals that start with a digit

Numbers, dates, times and timestamps start alike. The longest run of characters that
could belong to one is taken first, counting what tells them apart: two dashes make a
date, colons a time, both a timestamp, and anything else is a number, whose unit
starts at the first character that only a unit can have.
-/

namespace TagGrid.Zinc

open Outcome

/-- The part of a literal that was taken so far. -/
structure DigitToken where
  body : List Char
  unit : List Char
  dashes : Nat
  colons : Nat
  exponent : Bool
  deriving Repr, DecidableEq

namespace DigitToken

/-- The token of its first character. -/
def start (c : Char) : DigitToken := ⟨[c], [], 0, 0, false⟩

def text (t : DigitToken) : List Char := t.body ++ t.unit

/-- Adds a character to the part that is being taken. -/
def push (t : DigitToken) (c : Char) : DigitToken :=
  if t.unit = [] then { t with body := t.body ++ [c] } else { t with unit := t.unit ++ [c] }

/-- Adds a character to the unit, which it may start. -/
def pushUnit (t : DigitToken) (c : Char) : DigitToken := { t with unit := t.unit ++ [c] }

def nextIsDigit (next : Option Char) : Bool := next.any Char.isDigit

/-- Takes one character, of which the next one is known; `none` when the token ends
before it. An underscore between digits is left out. -/
def step? (t : DigitToken) (c : Char) (next : Option Char) : Option DigitToken :=
  if c.isDigit then some (t.push c)
  else if t.exponent ∧ (c = '+' ∨ c = '-') then some (t.push c)
  else if t.unit ≠ [] ∧ (c = '-' ∨ c = '*') then some (t.push c)
  else if c = '-' then some { t.push c with dashes := t.dashes + 1 }
  else if c = ':' ∧ nextIsDigit next then some { t.push c with colons := t.colons + 1 }
  else if (t.exponent ∨ 1 ≤ t.colons) ∧ c = '+' then some (t.push c)
  else if c = '.' then if nextIsDigit next then some (t.push c) else none
  else if (c = 'e' ∨ c = 'E') ∧ t.unit = [] ∧
      (nextIsDigit next ∨ next = some '+' ∨ next = some '-') then
    some { t.push c with exponent := true }
  else if c.isAlpha ∨ c = '%' ∨ c = '$' ∨ c = '/' ∨ 127 < c.toNat then some (t.pushUnit c)
  else if c = '_' then if t.unit = [] ∧ nextIsDigit next then some t else some (t.pushUnit c)
  else none

/-- Takes characters as long as they can belong to the token. -/
def scan (t : DigitToken) : List Char → DigitToken × List Char
  | [] => (t, [])
  | c :: cs =>
    match t.step? c cs.head? with
    | some t' => scan t' cs
    | none => (t, c :: cs)

end DigitToken

def examineNumber (t : DigitToken) : Except Fault Number :=
  match Double.read? t.body with
  | none => .error (.number (String.ofList t.text))
  | some value =>
    if t.unit = [] then .ok (.plain value)
    else (Number.withUnit? value (String.ofList t.unit)).mapError .violation

/-- Reads the value of a token, of which `cs` is the text after it. -/
def readToken (t : DigitToken) (cs : List Char) : Outcome Value :=
  if t.dashes = 2 ∧ t.colons = 0 then examine cs ((examineDate t.text).map .date)
  else if t.dashes = 0 ∧ 1 ≤ t.colons then
    let full := if t.colons = 1 then t.text ++ [':', '0', '0'] else t.text
    examine cs ((examineTime full).map .time)
  else if 2 ≤ t.dashes then (readTimestamp t.text cs).map .dateTime
  else examine cs ((examineNumber t).map .number)

def ofHexDigits (cs : List Char) : Nat :=
  cs.foldl (fun n c => n * 16 + (Text.hexDigit? c).getD 0) 0

/-- Reads a hexadecimal integer after its `0x`: digits with underscores anywhere among
them, for a number of at most 63 bits. -/
def readHexNumber (cs : List Char) : Outcome Value :=
  let isPart (c : Char) : Bool := (Text.hexDigit? c).isSome || c == '_'
  let digits := (cs.takeWhile isPart).filter (· != '_')
  let rest := cs.dropWhile isPart
  if digits ≠ [] ∧ ofHexDigits digits < Nat.pow 2 63 then
    ok (.ofInt (ofHexDigits digits)) rest
  else failHere (.hexNumber (String.ofList digits)) rest

/-- Reads a literal that starts with a digit, or with a dash before one. -/
def readDigitLiteral (cs : List Char) : Outcome Value :=
  match cs with
  | '0' :: 'x' :: rest => readHexNumber rest
  | c :: rest =>
    let (token, rest) := (DigitToken.start c).scan rest
    readToken token rest
  | [] => failHere .valueMissing []

end TagGrid.Zinc
