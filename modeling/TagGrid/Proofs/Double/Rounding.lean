import Mathlib.Tactic.Ring
import TagGrid.Double.Decimal

/-! # How far rounding goes

Rounding a quotient to so many bits leaves a number that has no more bits as it is,
does not pass such a number, and moves any other quotient by less than one part in
`2 ^ p`.
-/

namespace TagGrid

theorem two_mul_divNearestEven_mul_le (num den : Nat) :
    2 * (divNearestEven num den * den) ≤ 2 * num + den := by
  have hdiv := Nat.div_add_mod' num den
  unfold divNearestEven
  dsimp only
  split
  · omega
  · split
    · rw [Nat.add_mul]
      omega
    · have hbit : num / den % 2 * den ≤ 1 * den := Nat.mul_le_mul_right den (by omega)
      rw [Nat.add_mul]
      omega

theorem two_mul_le_divNearestEven_mul (num : Nat) {den : Nat} (hden : 0 < den) :
    2 * num ≤ 2 * (divNearestEven num den * den) + den := by
  have hdiv := Nat.div_add_mod' num den
  have hmod := Nat.mod_lt num hden
  unfold divNearestEven
  dsimp only
  split
  · omega
  · split
    · rw [Nat.add_mul]
      omega
    · rw [Nat.add_mul]
      omega

theorem divNearestEven_mul (n : Nat) {den : Nat} (hden : 0 < den) :
    divNearestEven (n * den) den = n := by
  unfold divNearestEven
  simp [Nat.mul_mod_left, Nat.mul_div_cancel n hden, hden]

theorem divNearestEven_le {num den bound : Nat} (hden : 0 < den) (h : num ≤ bound * den) :
    divNearestEven num den ≤ bound := by
  rcases Nat.lt_or_eq_of_le h with hlt | rfl
  · have hdiv : num / den < bound := (Nat.div_lt_iff_lt_mul hden).2 hlt
    have := divNearestEven_le_succ num den
    omega
  · rw [divNearestEven_mul bound hden]

/-- A number that has no more bits than are kept is not changed. -/
theorem roundTo_mul_of_hasPrecision {p n den : Nat} (hden : 0 < den) (h : HasPrecision p n) :
    roundTo p (n * den) den = n := by
  unfold roundTo droppedBits
  unfold HasPrecision at h
  simp only [Nat.pow_eq] at *
  rw [Nat.mul_div_cancel n hden]
  have hpow : 0 < 2 ^ (n.log2 + 1 - p) := Nat.two_pow_pos _
  obtain ⟨m, hm⟩ := Nat.dvd_of_mod_eq_zero h
  have hnum : n * den = m * (den * 2 ^ (n.log2 + 1 - p)) := by
    calc
      n * den = 2 ^ (n.log2 + 1 - p) * m * den := by rw [← hm]
      _ = m * (den * 2 ^ (n.log2 + 1 - p)) := by ring
  rw [hnum, divNearestEven_mul m (Nat.mul_pos hden hpow), Nat.mul_comm]
  exact hm.symm

/-- Rounding does not pass a number that has no more bits than are kept. -/
theorem roundTo_le {p num den bound : Nat} (hden : 0 < den) (hbound : HasPrecision p bound)
    (h : num ≤ bound * den) : roundTo p num den ≤ bound := by
  unfold roundTo droppedBits
  unfold HasPrecision at hbound
  simp only [Nat.pow_eq] at *
  have hquot : num / den ≤ bound := Nat.div_le_of_le_mul (by rwa [Nat.mul_comm] at h)
  have hlog : (num / den).log2 ≤ bound.log2 := by
    rcases Nat.eq_zero_or_pos (num / den) with hzero | hpos
    · rw [hzero]
      exact Nat.zero_le _
    · rw [Nat.le_log2 (by omega)]
      exact Nat.le_trans (Nat.log2_self_le (by omega)) hquot
  obtain ⟨m, hm⟩ : 2 ^ ((num / den).log2 + 1 - p) ∣ bound :=
    Nat.dvd_trans (Nat.pow_dvd_pow 2 (by omega)) (Nat.dvd_of_mod_eq_zero hbound)
  have hpow : 0 < 2 ^ ((num / den).log2 + 1 - p) := Nat.two_pow_pos _
  have hle : num ≤ m * (den * 2 ^ ((num / den).log2 + 1 - p)) := by
    calc
      num ≤ bound * den := h
      _ = 2 ^ ((num / den).log2 + 1 - p) * m * den := by rw [← hm]
      _ = m * (den * 2 ^ ((num / den).log2 + 1 - p)) := by ring
  calc
    _ ≤ m * 2 ^ ((num / den).log2 + 1 - p) :=
      Nat.mul_le_mul_right _ (divNearestEven_le (Nat.mul_pos hden hpow) hle)
    _ = bound := by rw [Nat.mul_comm]; exact hm.symm

/-- The step between neighbours is small beside a quotient that has all the kept bits. -/
theorem scale_mul_le {p num den : Nat} (h : 2 ^ p * den ≤ num) (hden : 0 < den) :
    den * 2 ^ droppedBits (p + 1) num den * 2 ^ p ≤ num := by
  have hquot : 2 ^ p ≤ num / den := (Nat.le_div_iff_mul_le hden).2 h
  have hpos : num / den ≠ 0 := by
    have := Nat.two_pow_pos p
    omega
  have hlog : p ≤ (num / den).log2 := (Nat.le_log2 hpos).2 hquot
  have hdropped : droppedBits (p + 1) num den + p = (num / den).log2 := by
    unfold droppedBits
    omega
  calc
    den * 2 ^ droppedBits (p + 1) num den * 2 ^ p = 2 ^ (num / den).log2 * den := by
      rw [← hdropped, Nat.pow_add]
      ring
    _ ≤ num / den * den := Nat.mul_le_mul_right den (Nat.log2_self_le hpos)
    _ ≤ num := Nat.div_mul_le_self num den

variable {p num den : Nat}

/-- Rounding up moves a quotient by less than one part in `2 ^ (p + 1)`. -/
theorem roundTo_mul_le (hden : 0 < den) (h : 2 ^ p * den ≤ num) :
    roundTo (p + 1) num den * den * 2 ^ (p + 1) ≤ num * (2 ^ (p + 1) + 1) := by
  have hnear := two_mul_divNearestEven_mul_le num (den * 2 ^ droppedBits (p + 1) num den)
  have hstep := scale_mul_le h hden
  have hpow : 2 ^ (p + 1) = 2 * 2 ^ p := Nat.pow_succ'
  unfold roundTo
  simp only [Nat.pow_eq]
  generalize divNearestEven num (den * 2 ^ droppedBits (p + 1) num den) = q at *
  rw [hpow]
  calc
    q * 2 ^ droppedBits (p + 1) num den * den * (2 * 2 ^ p)
        = 2 * (q * (den * 2 ^ droppedBits (p + 1) num den)) * 2 ^ p := by ring
    _ ≤ (2 * num + den * 2 ^ droppedBits (p + 1) num den) * 2 ^ p :=
      Nat.mul_le_mul_right _ hnear
    _ = num * (2 * 2 ^ p) + den * 2 ^ droppedBits (p + 1) num den * 2 ^ p := by ring
    _ ≤ num * (2 * 2 ^ p + 1) := by rw [Nat.mul_add, Nat.mul_one]; omega

/-- Rounding down moves a quotient by less than one part in `2 ^ (p + 1)`. -/
theorem le_roundTo_mul (hden : 0 < den) (h : 2 ^ p * den ≤ num) :
    num * 2 ^ (p + 1) ≤ roundTo (p + 1) num den * den * 2 ^ (p + 1) + num := by
  have hscale : 0 < den * 2 ^ droppedBits (p + 1) num den :=
    Nat.mul_pos hden (Nat.two_pow_pos _)
  have hnear := two_mul_le_divNearestEven_mul num hscale
  have hstep := scale_mul_le h hden
  have hpow : 2 ^ (p + 1) = 2 * 2 ^ p := Nat.pow_succ'
  unfold roundTo
  simp only [Nat.pow_eq]
  generalize divNearestEven num (den * 2 ^ droppedBits (p + 1) num den) = q at *
  rw [hpow]
  calc
    num * (2 * 2 ^ p) = 2 * num * 2 ^ p := by ring
    _ ≤ (2 * (q * (den * 2 ^ droppedBits (p + 1) num den))
          + den * 2 ^ droppedBits (p + 1) num den) * 2 ^ p := Nat.mul_le_mul_right _ hnear
    _ = q * 2 ^ droppedBits (p + 1) num den * den * (2 * 2 ^ p)
          + den * 2 ^ droppedBits (p + 1) num den * 2 ^ p := by ring
    _ ≤ _ := Nat.add_le_add_left hstep _

end TagGrid
