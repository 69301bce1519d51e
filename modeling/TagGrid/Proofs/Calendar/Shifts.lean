import TagGrid.Proofs.Calendar.DaysLater
import TagGrid.Proofs.Calendar.Order

/-! # Shifting dates in order

More days lead to a later date, fewer to an earlier one, with the first day of 1900 as the
earliest of all. At the other end there is no such floor: where the days would lead past the
count the date stays as it is, which keeps the order only against days that lead no further.
-/

namespace TagGrid

open Calendar

/-- Only the least word has no negative. -/
theorem toInt_neg_of_ne_minValue {n : Int64} (h : n ≠ Int64.minValue) : (-n).toInt = -n.toInt := by
  have hlow := n.le_toInt
  have hhigh := n.toInt_lt
  have hne : n.toInt ≠ -2 ^ 63 := fun hmin => h (Int64.toInt_inj.1 hmin)
  rw [Int64.toInt_neg, Int.bmod_eq_of_le (by omega) (by omega)]

namespace Date

variable {d : Date} {m n : Int64}

/-- So many days after a date the day count has ended. -/
def EndsCount (d : Date) (n : Int64) : Prop := lastDay < d.dayNumber + n.toInt

instance decidableEndsCount (d : Date) (n : Int64) : Decidable (d.EndsCount n) :=
  inferInstanceAs (Decidable (lastDay < d.dayNumber + n.toInt))

theorem dayNumber_le_lastDay (hd : d.year ≤ lastYear) : d.dayNumber ≤ lastDay := by
  rw [dayNumber_eq hd]
  exact d.toDay.number_le_lastDay_iff.2 hd

theorem plusDays_of_endsCount (hd : d.year ≤ lastYear) (h : d.EndsCount n) :
    d.plusDays n = d := by
  have hbeyond : ¬ (firstDay ≤ d.dayNumber + n.toInt ∧ d.dayNumber + n.toInt ≤ lastDay) :=
    fun hrange => Int.not_le.2 h hrange.2
  have hforward : ¬ n < 0 := by
    have hlast := dayNumber_le_lastDay hd
    unfold EndsCount at h
    rw [Int64.lt_iff_toInt_lt, Int64.toInt_zero]
    omega
  rw [plusDays_of_none (if_neg hbeyond), if_neg hforward]

/-- The number of the date so many days later, short of the end of the count. -/
theorem number_plusDays (hd : d.year ≤ lastYear) (h : ¬ d.EndsCount n) :
    (d.plusDays n).toDay.number = max first.toDay.number (d.dayNumber + n.toInt) := by
  have htarget : d.toDay.LiesAfter n.toInt (Day.ofNumber (d.toDay.number + n.toInt)) :=
    Day.liesAfter_iff.2 (Day.number_ofNumber _)
  generalize Day.ofNumber (d.toDay.number + n.toInt) = target at htarget
  have hnumber := number_of_liesAfter hd htarget
  have hsince := target.number_lt_daysBeforeYear_iff 1900
  have hfirst := number_first
  by_cases hbefore : target.year < 1900
  · rw [plusDays_eq_first hd htarget hbefore]
    omega
  · have hlast : target.year ≤ lastYear := by
      rw [← target.number_le_lastDay_iff, hnumber]
      exact Int.not_lt.1 h
    rw [toDay_plusDays hd htarget (Int.not_lt.1 hbefore) hlast]
    omega

/-- Days are added in order, unless the more of them lead past the count and the fewer do
not. -/
theorem plusDays_le_iff (hd : d.year ≤ lastYear) (h : m ≤ n) :
    (d.plusDays m).compare (d.plusDays n) ≠ .gt ↔ (d.EndsCount n → d.EndsCount m ∨ m ≤ 0) := by
  have hfirst := d.number_first_le
  have hlast := dayNumber_le_lastDay hd
  rw [← dayNumber_eq hd] at hfirst
  rw [compare_eq_compare_number, Int.compare_ne_gt, Int64.le_iff_toInt_le, Int64.toInt_zero]
  rw [Int64.le_iff_toInt_le] at h
  by_cases hm : d.EndsCount m
  · have hn : d.EndsCount n := by
      unfold EndsCount at hm ⊢
      omega
    rw [plusDays_of_endsCount hd hm, plusDays_of_endsCount hd hn]
    simp [hm]
  · rw [number_plusDays hd hm]
    by_cases hn : d.EndsCount n
    · rw [plusDays_of_endsCount hd hn, ← dayNumber_eq hd]
      simp only [hm, hn, true_imp_iff, false_or]
      omega
    · rw [number_plusDays hd hn]
      simp only [hn, false_imp_iff, iff_true]
      omega

theorem minusDays_ge_iff (hd : d.year ≤ lastYear) (h : m ≤ n) (hm : m ≠ Int64.minValue) :
    (d.minusDays m).compare (d.minusDays n) ≠ .lt ↔
      (d.EndsCount (-m) → d.EndsCount (-n) ∨ 0 ≤ n) := by
  have hn : n ≠ Int64.minValue := by
    rintro rfl
    exact hm (Int64.le_antisymm h (Int64.minValue_le m))
  have hneg : -n ≤ -m := by
    rw [Int64.le_iff_toInt_le, toInt_neg_of_ne_minValue hm, toInt_neg_of_ne_minValue hn]
    exact Int.neg_le_neg (Int64.le_iff_toInt_le.1 h)
  have hplus := plusDays_le_iff hd hneg
  rw [Int64.neg_nonpos_iff, or_iff_right hn] at hplus
  rw [← hplus, compare_swap (d.minusDays n) (d.minusDays m), ne_eq, Ordering.swap_eq_lt]
  rfl

/-- Shifting a date of the count by more days leads to no earlier date, and by more days back to
no later one, as long as the larger shift does not lead past the count while the smaller one
leads forward in it: what leads past the count leaves the date as it is. Every number of days but
the least word has a negative to go back by. -/
theorem shifts_keep_order (d : Date) (hd : d.year ≤ lastYear) :
    (∀ m n : Int64, m ≤ n →
      ((d.plusDays m).compare (d.plusDays n) ≠ .gt ↔ (d.EndsCount n → d.EndsCount m ∨ m ≤ 0))) ∧
    (∀ m n : Int64, m ≤ n → m ≠ Int64.minValue →
      ((d.minusDays m).compare (d.minusDays n) ≠ .lt ↔
        (d.EndsCount (-m) → d.EndsCount (-n) ∨ 0 ≤ n))) ∧
    (∀ n, d.EndsCount n → d.plusDays n = d) ∧
    ∀ n : Int64, n ≠ Int64.minValue → (-n).toInt = -n.toInt :=
  ⟨fun _ _ => plusDays_le_iff hd, fun _ _ => minusDays_ge_iff hd,
    fun _ => plusDays_of_endsCount hd, fun _ => toInt_neg_of_ne_minValue⟩

def leapDay : Date := ⟨2000, 2, 29, by decide⟩

theorem leap_day_shifts_keep_order :
    leapDay.year ≤ lastYear ∧
    ((-1 : Int64) ≤ 1 ∧ (leapDay.plusDays (-1)).compare (leapDay.plusDays 1) ≠ .gt) ∧
    ((-1 : Int64) ≤ 1 ∧ (-1 : Int64) ≠ Int64.minValue ∧
      (leapDay.minusDays (-1)).compare (leapDay.minusDays 1) ≠ .lt) ∧
    (leapDay.EndsCount Int64.maxValue ∧ leapDay.plusDays Int64.maxValue = leapDay) ∧
    (1 : Int64) ≠ Int64.minValue ∧ (-1 : Int64).toInt = -(1 : Int64).toInt := by
  obtain ⟨hplus, hminus, hpast, hneg⟩ := shifts_keep_order leapDay (by decide)
  have hinCount : ¬ leapDay.EndsCount 1 := by decide
  refine ⟨by decide, ⟨by decide, ?_⟩, ⟨by decide, by decide, ?_⟩,
    ⟨by decide, hpast _ (by decide)⟩, by decide, hneg 1 (by decide)⟩
  · exact (hplus (-1) 1 (by decide)).2 fun h => absurd h hinCount
  · exact (hminus (-1) 1 (by decide) (by decide)).2 fun h => absurd h hinCount

/-- The largest number of days leads nowhere, so it falls behind a single day. -/
theorem largest_shift_is_behind :
    ∃ d, ofFields? 2024 1 1 = .ok d ∧ (1 : Int64) ≤ Int64.maxValue ∧
      (d.plusDays 1).compare (d.plusDays Int64.maxValue) = .gt :=
  ⟨⟨2024, 1, 1, by decide⟩, rfl, by decide, by decide +kernel⟩

end Date

end TagGrid
