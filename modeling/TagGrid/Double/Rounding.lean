/-! # Rounding a quotient to so many bits

A binary floating-point format keeps the leading bits of a number. Measured in its
least positive value, a number of the format is a natural number with a bounded
count of significant bits, and an exact quotient is stored as the nearest of those,
a half going to the even neighbour.
-/

namespace TagGrid

/-- The natural number `n` has at most `p` significant bits. -/
def HasPrecision (p n : Nat) : Prop := n % Nat.pow 2 (n.log2 + 1 - p) = 0

/-- The integer nearest to a quotient, a half going to the even one. -/
def divNearestEven (num den : Nat) : Nat :=
  let quotient := num / den
  let excess := 2 * (num % den)
  if excess < den then quotient
  else if den < excess then quotient + 1
  else quotient + quotient % 2

/-- How many low bits of a quotient do not fit into `p` significant bits. -/
def droppedBits (p num den : Nat) : Nat := (num / den).log2 + 1 - p

/-- The number of at most `p` significant bits that is nearest to a quotient, a half
going to the one whose last kept bit is zero. -/
def roundTo (p num den : Nat) : Nat :=
  let scale := Nat.pow 2 (droppedBits p num den)
  divNearestEven num (den * scale) * scale

theorem divNearestEven_le_succ (num den : Nat) : divNearestEven num den ≤ num / den + 1 := by
  unfold divNearestEven
  dsimp only
  split
  · omega
  · split <;> omega

/-- A scaled integer of at most `p` bits, or the power of two after those, has
precision `p`. -/
theorem hasPrecision_scaled {p m : Nat} (s : Nat) (hp : 0 < p) (hm : m ≤ Nat.pow 2 p) :
    HasPrecision p (m * Nat.pow 2 s) := by
  unfold HasPrecision
  simp only [Nat.pow_eq] at *
  rcases Nat.eq_zero_or_pos m with rfl | hpos
  · simp
  have hne : m * 2 ^ s ≠ 0 := Nat.mul_ne_zero (by omega) (by have := Nat.two_pow_pos s; omega)
  apply Nat.mod_eq_zero_of_dvd
  rcases Nat.lt_or_ge m (2 ^ p) with hlt | hge
  · have hlog : (m * 2 ^ s).log2 < p + s := by
      rw [Nat.log2_lt hne, Nat.pow_add]
      exact Nat.mul_lt_mul_of_pos_right hlt (Nat.two_pow_pos s)
    exact Nat.dvd_trans (Nat.pow_dvd_pow 2 (by omega)) (Nat.dvd_mul_left _ _)
  · have hm' : m = 2 ^ p := by omega
    subst hm'
    rw [← Nat.pow_add]
    have hlog : (2 ^ (p + s)).log2 < p + s + 1 := by
      rw [Nat.log2_lt (by have := Nat.two_pow_pos (p + s); omega)]
      exact Nat.pow_lt_pow_right (by omega) (by omega)
    exact Nat.pow_dvd_pow 2 (by omega)

theorem hasPrecision_roundTo {p : Nat} (num den : Nat) (hp : 0 < p) :
    HasPrecision p (roundTo p num den) := by
  unfold roundTo
  refine hasPrecision_scaled _ hp ?_
  refine Nat.le_trans (divNearestEven_le_succ _ _) ?_
  rw [← Nat.div_div_eq_div_mul]
  simp only [Nat.pow_eq]
  have hlt : num / den < 2 ^ (p + droppedBits p num den) := by
    refine Nat.lt_of_lt_of_le Nat.lt_log2_self ?_
    exact Nat.pow_le_pow_right (by omega) (by unfold droppedBits; omega)
  rw [Nat.pow_add] at hlt
  exact Nat.div_lt_of_lt_mul (by rwa [Nat.mul_comm] at hlt)

end TagGrid
