import TagGrid.Double.Decimal

/-! # The shortest decimal of a double

A double is written with the fewest digits that read back as the same double; of two
such decimals with equally many digits the nearer one is taken. Two can be equally
near, and the formats differ in which of them they take.
-/

namespace TagGrid

/-- Which of two equally near decimals of equally many digits is taken. -/
inductive Tie where
  | larger
  /-- The one whose last digit is even. -/
  | even
  deriving Repr, DecidableEq

namespace Double

/-- The decimal place of a positive quotient of grains: the least `k` with the
quotient below `10 ^ k`. -/
def decimalPlace (grains : Nat) : Int :=
  if grainsPerUnit ≤ grains then (Decimal.digits (grains / grainsPerUnit)).length
  else 1 - (Decimal.digits ((grainsPerUnit - 1) / grains)).length

/-- A decimal of `n` digits, or the power of ten after those. -/
def onGrid (n coefficient : Nat) (exponent : Int) : Decimal :=
  if coefficient = Nat.pow 10 n then ⟨1, exponent + n⟩ else ⟨coefficient, exponent⟩

/-- Whether the lower neighbour of a quotient comes first: it is the nearer one, or
equally near and preferred by the rule for ties. -/
def lowerFirst (tie : Tie) (num den : Nat) : Bool :=
  2 * (num % den) < den || (2 * (num % den) == den && tie == .even && num / den % 2 == 0)

/-- The two neighbours of a positive number of grains among the decimals of `n` digits,
the nearer one first. -/
def neighbours (tie : Tie) (grains n : Nat) : List Decimal :=
  let exponent := decimalPlace grains - n
  let num := grains * Nat.pow 10 (-exponent).toNat
  let den := grainsPerUnit * Nat.pow 10 exponent.toNat
  let below := onGrid n (num / den) exponent
  let above := onGrid n (num / den + 1) exponent
  if lowerFirst tie num den then [below, above] else [above, below]

/-- The decimals to try for a positive number of grains, those of fewer digits first. -/
def candidates (tie : Tie) (grains : Nat) : List Decimal :=
  (List.range 17).flatMap fun i => neighbours tie grains (i + 1)

/-- A number of grains written out in full. -/
def expansion (grains : Nat) : Decimal := ⟨grains * Nat.pow 5 1074, -1074⟩

/-- The shortest decimal for a count of grains. Seventeen digits tell any two doubles
apart, so the full expansion is a last resort. -/
def shortest (tie : Tie) (grains : Nat) (storable : Storable grains) : Decimal :=
  if grains = 0 then ⟨0, 0⟩
  else
    ((candidates tie grains).find? fun d =>
      d.toDouble false == .finite false grains storable).getD (expansion grains)

/-- Plain decimal text, a tie going to the larger decimal. Not-a-number is `NaN`, and
`infinityName` spells infinity. -/
def textWith (infinityName : String) : Double → List Char
  | .nan => "NaN".toList
  | .infinity negative => (if negative then ['-'] else []) ++ infinityName.toList
  | .finite negative grains storable =>
    (if negative then ['-'] else []) ++ (shortest .larger grains storable).plain

/-- The text of a number as a value: `INF` and `-INF` are keywords of the formats. -/
def text (x : Double) : List Char := x.textWith "INF"

end Double

end TagGrid
