import TagGrid.Double.Basic

/-! # Decimal text of numbers

A decimal is a coefficient times a power of ten. This module holds its plain layout
with no exponent, the reading of decimal text with a point or an exponent, and the
double that is nearest to a decimal.
-/

namespace TagGrid

/-- The number `coefficient * 10 ^ exponent`. -/
structure Decimal where
  coefficient : Nat
  exponent : Int
  deriving Repr, DecidableEq

namespace Decimal

/-- The number that `ofRatio` gives for a decimal with a sign. Far outside the range
of doubles the answer is known without the power of ten: a positive decimal above
`10³¹⁰` overflows, and one below `10⁻³³⁰` is zero. -/
def nearest (ofRatio : Bool → Nat → Nat → Double) (negative : Bool) (d : Decimal) : Double :=
  if d.coefficient = 0 then Double.zero negative
  else if 310 < d.exponent then .infinity negative
  else if d.exponent + d.coefficient.log2 + 1 < -330 then Double.zero negative
  else ofRatio negative (d.coefficient * Nat.pow 10 d.exponent.toNat)
    (Nat.pow 10 (-d.exponent).toNat)

def toDouble (negative : Bool) (d : Decimal) : Double := d.nearest Double.ofRatio negative

/-- The single-precision number nearest to a decimal with a sign. -/
def toSingle (negative : Bool) (d : Decimal) : Double := d.nearest Double.ofRatioSingle negative

def ofDigits (digits : List Char) : Nat := Nat.ofDigitChars 10 digits 0

def digits (n : Nat) : List Char := Nat.toDigits 10 n

/-- Digits with a point before the last `places` of them, and at least one digit
before the point. -/
def withPoint (ds : List Char) (places : Nat) : List Char :=
  if places < ds.length then
    ds.take (ds.length - places) ++ '.' :: ds.drop (ds.length - places)
  else ['0', '.'] ++ List.replicate (places - ds.length) '0' ++ ds

/-- The plain layout: digits with a point where one is needed, and no exponent. -/
def plain (d : Decimal) : List Char :=
  if 0 ≤ d.exponent then digits d.coefficient ++ List.replicate d.exponent.toNat '0'
  else withPoint (digits d.coefficient) (-d.exponent).toNat

/-- Reads an exponent: digits after an optional sign, and nothing else. -/
def readExponent? (cs : List Char) : Option Int :=
  let unsigned? (ds : List Char) : Option Nat :=
    if ds ≠ [] ∧ ds.all Char.isDigit then some (ofDigits ds) else none
  match cs with
  | '-' :: ds => (unsigned? ds).map fun n => -(n : Int)
  | '+' :: ds => (unsigned? ds).map fun n => (n : Int)
  | ds => (unsigned? ds).map fun n => (n : Int)

/-- The digits after a point, if a point comes next, and the text after them. -/
def fractionDigits : List Char → List Char × List Char
  | '.' :: cs => (cs.takeWhile Char.isDigit, cs.dropWhile Char.isDigit)
  | cs => ([], cs)

/-- Reads a decimal without a sign: digits with an optional point, at least one digit
in all, and an optional exponent after `e` or `E`. -/
def read? (cs : List Char) : Option Decimal :=
  let whole := cs.takeWhile Char.isDigit
  let (fraction, rest) := fractionDigits (cs.dropWhile Char.isDigit)
  if whole = [] ∧ fraction = [] then none
  else
    let coefficient := ofDigits (whole ++ fraction)
    match rest with
    | [] => some ⟨coefficient, -fraction.length⟩
    | c :: exponentText =>
      if c = 'e' ∨ c = 'E' then
        (readExponent? exponentText).map fun e => ⟨coefficient, e - fraction.length⟩
      else none

end Decimal

namespace Double

/-- Splits a leading sign off a text; true for a minus. -/
def splitSign : List Char → Bool × List Char
  | '-' :: cs => (true, cs)
  | '+' :: cs => (false, cs)
  | cs => (false, cs)

/-- The names of the values that have no digits, compared without regard to case. -/
def special? (negative : Bool) (cs : List Char) : Option Double :=
  let name := cs.map Char.toLower
  if name = "inf".toList ∨ name = "infinity".toList then some (.infinity negative)
  else if name = "nan".toList then some .nan
  else none

/-- Reads a number with `ofDecimal` for its digits: an optional sign, then a decimal or
one of the names `inf`, `infinity` and `nan` in any case. -/
def readWith? (ofDecimal : Bool → Decimal → Double) (cs : List Char) : Option Double :=
  let (negative, body) := splitSign cs
  match Decimal.read? body with
  | some d => some (ofDecimal negative d)
  | none => special? negative body

def read? (cs : List Char) : Option Double :=
  readWith? (fun negative d => d.toDouble negative) cs

def readSingle? (cs : List Char) : Option Double :=
  readWith? (fun negative d => d.toSingle negative) cs

end Double

end TagGrid
