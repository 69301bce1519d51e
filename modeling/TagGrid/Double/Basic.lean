import TagGrid.Double.Rounding

/-! # Double-precision numbers

A double is not-a-number, an infinity or a finite number with 53 significant bits.
A finite one is held exactly, as a sign and a natural number of *grains*, the least
positive double `2⁻¹⁰⁷⁴`. Each double has one representation: `=` tells the two
zeros apart and makes not-a-number equal to itself, and the numeric comparison is
`Double.compare?`.
-/

namespace TagGrid

namespace Double

/-- The number of grains in one. -/
def grainsPerUnit : Nat := Nat.pow 2 1074

/-- The number of grains past the largest finite double. -/
def grainLimit : Nat := Nat.pow 2 2098

/-- The count of grains of a finite double: 53 significant bits, below the limit. -/
def Storable (grains : Nat) : Prop := grains < grainLimit ∧ HasPrecision 53 grains

end Double

/-- A double-precision binary floating-point number. -/
inductive Double where
  | nan
  | infinity (negative : Bool)
  /-- A finite number as a sign and a count of grains; zero has either sign. -/
  | finite (negative : Bool) (grains : Nat) (storable : Double.Storable grains)
  deriving Repr, DecidableEq

namespace Double

/-- The double nearest to a number of grains given as a quotient; past the largest
finite double it is an infinity. -/
def ofGrains (negative : Bool) (num den : Nat) : Double :=
  if h : roundTo 53 num den < grainLimit then
    .finite negative (roundTo 53 num den) ⟨h, hasPrecision_roundTo num den (by decide)⟩
  else .infinity negative

def ofRatio (negative : Bool) (num den : Nat) : Double :=
  ofGrains negative (num * grainsPerUnit) den

def ofNat (n : Nat) : Double := ofRatio false n 1

def ofInt (i : Int) : Double := ofRatio (i < 0) i.natAbs 1

theorem grainLimit_pos : 0 < grainLimit := by decide +kernel

theorem storable_zero : Storable 0 := ⟨grainLimit_pos, Nat.zero_mod _⟩

/-- Zero, with a sign. -/
def zero (negative : Bool) : Double := .finite negative 0 storable_zero

def neg : Double → Double
  | .nan => .nan
  | .infinity negative => .infinity !negative
  | .finite negative grains storable => .finite (!negative) grains storable

def isFinite : Double → Bool
  | .finite .. => true
  | _ => false

/-- The place of a number on the line of grains; an infinity lies past every finite
number, and not-a-number has no place. -/
def place? : Double → Option Int
  | .nan => none
  | .infinity negative => some (if negative then -(grainLimit : Int) else grainLimit)
  | .finite negative grains _ => some (if negative then -(grains : Int) else grains)

/-- The numeric comparison. Not-a-number compares with nothing, and the two zeros
are equal. -/
def compare? (a b : Double) : Option Ordering :=
  match a.place?, b.place? with
  | some x, some y => some (compare x y)
  | _, _ => none

/-- Whether two numbers are the same number, not-a-number being the same as itself. -/
def same (a b : Double) : Bool := a.place? == b.place?

/-- Whether a number lies between two bounds, ends included. -/
def inRange (low high : Int) (a : Double) : Bool :=
  match a.place? with
  | some x => low * grainsPerUnit ≤ x && x ≤ high * grainsPerUnit
  | none => false

/-- The product, rounded once. -/
def mul : Double → Double → Double
  | .nan, _ => .nan
  | _, .nan => .nan
  | .infinity s, .infinity t => .infinity (s != t)
  | .infinity s, .finite t g _ => if g = 0 then .nan else .infinity (s != t)
  | .finite s g _, .infinity t => if g = 0 then .nan else .infinity (s != t)
  | .finite s g _, .finite t h _ => ofGrains (s != t) (g * h) grainsPerUnit

/-- The quotient, rounded once. -/
def div : Double → Double → Double
  | .nan, _ => .nan
  | _, .nan => .nan
  | .infinity _, .infinity _ => .nan
  | .infinity s, .finite t _ _ => .infinity (s != t)
  | .finite s _ _, .infinity t => zero (s != t)
  | .finite s g _, .finite t h _ =>
    if h = 0 then (if g = 0 then .nan else .infinity (s != t))
    else ofRatio (s != t) g h

/-- The nearest integer of a finite number, a half going away from zero. -/
def roundToInt? : Double → Option Int
  | .finite negative grains _ =>
    let magnitude : Int := ((2 * grains + grainsPerUnit) / (2 * grainsPerUnit) : Nat)
    some (if negative then -magnitude else magnitude)
  | _ => none

/-- The double with the value of the single-precision number nearest to a quotient.
Single precision keeps 24 bits, its least positive value is `2⁻¹⁴⁹`, and it ends
before `2¹²⁸`. -/
def ofRatioSingle (negative : Bool) (num den : Nat) : Double :=
  let steps := roundTo 24 (num * Nat.pow 2 149) den
  if steps < Nat.pow 2 277 then ofRatio negative steps (Nat.pow 2 149) else .infinity negative

end Double

end TagGrid
