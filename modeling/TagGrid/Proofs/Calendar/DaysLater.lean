import Mathlib.Algebra.BigOperators.Intervals
import TagGrid.Proofs.Calendar.DayCount

/-! # Days later and earlier

A date so many days later is found by its number. It is the one that is reached day by day
along the calendar, and for a date so many days earlier it is the one from which the calendar
leads back; no date lies before 1900, so what would is the first day of that year.
-/

namespace TagGrid

open Calendar

namespace Calendar

variable {a b : Day} {n : Int} {year : Int} {month : Nat}

/-- A day lies so many days after another one. For a negative number it is the other one that
lies so many days after it. -/
def Day.LiesAfter (a : Day) : Int → Day → Prop
  | .ofNat k, b => Day.next^[k] a = b
  | .negSucc k, b => Day.next^[k + 1] b = a

instance Day.decidableLiesAfter (a : Day) : (n : Int) → (b : Day) → Decidable (a.LiesAfter n b)
  | .ofNat k, b => inferInstanceAs (Decidable (Day.next^[k] a = b))
  | .negSucc k, b => inferInstanceAs (Decidable (Day.next^[k + 1] b = a))

theorem Day.liesAfter_iff : a.LiesAfter n b ↔ b.number = a.number + n := by
  cases n with
  | ofNat k =>
    show Day.next^[k] a = b ↔ _
    rw [← number_injective.eq_iff, number_iterate_next, eq_comm]
    rfl
  | negSucc k =>
    show Day.next^[k + 1] b = a ↔ _
    rw [← number_injective.eq_iff, number_iterate_next]
    omega

/-- The calendar has no gap and no second way. -/
theorem Day.existsUnique_liesAfter (a : Day) (n : Int) : ∃! b, a.LiesAfter n b := by
  refine ⟨ofNumber (a.number + n), liesAfter_iff.2 (number_ofNumber _), ?_⟩
  intro b hb
  rw [← liesAfter_iff.1 hb, ofNumber_number]

theorem daysBeforeMonth_eq_sum (hmonth : 1 ≤ month) :
    daysBeforeMonth year month = ∑ m ∈ Finset.Ico 1 month, daysInMonth year m := by
  induction month, hmonth using Nat.le_induction with
  | base => rfl
  | succ month hmonth ih => rw [Finset.sum_Ico_succ_top hmonth, daysBeforeMonth_succ, ih]

end Calendar

namespace Date

variable {d : Date} {target : Day} {n : Int64}

theorem plusDays_of_some {later : Date}
    (h : ofDayNumber? (d.dayNumber + n.toInt) = some later) : d.plusDays n = later := by
  unfold plusDays
  rw [h]

theorem plusDays_of_none (h : ofDayNumber? (d.dayNumber + n.toInt) = none) :
    d.plusDays n = if n < 0 then first else d := by
  unfold plusDays
  rw [h]

theorem number_of_liesAfter (hd : d.year ≤ lastYear) (h : d.toDay.LiesAfter n.toInt target) :
    target.number = d.dayNumber + n.toInt := by
  rw [dayNumber_eq hd, Day.liesAfter_iff.1 h]

/-- A day since 1900 that the count has is where the days lead. -/
theorem toDay_plusDays (hd : d.year ≤ lastYear) (h : d.toDay.LiesAfter n.toInt target)
    (hsince : 1900 ≤ target.year) (hlast : target.year ≤ lastYear) :
    (d.plusDays n).toDay = target := by
  obtain ⟨year, month, day, hvalid⟩ := target
  obtain ⟨year, rfl⟩ := Int.eq_ofNat_of_zero_le (Int.le_trans (by decide) hsince)
  have hfound : ofDayNumber? (d.dayNumber + n.toInt) =
      some ⟨year, month, day, Int.ofNat_le.1 hsince, hvalid⟩ :=
    ofDayNumber?_eq_some_iff.2 ⟨number_of_liesAfter hd h, hlast⟩
  rw [plusDays_of_some hfound]
  rfl

/-- What would lie before 1900 is the first day of 1900. -/
theorem plusDays_eq_first (hd : d.year ≤ lastYear) (h : d.toDay.LiesAfter n.toInt target)
    (hbefore : target.year < 1900) : d.plusDays n = first := by
  have hnone : ofDayNumber? (d.dayNumber + n.toInt) = none := by
    rw [Option.eq_none_iff_forall_ne_some]
    intro later hlater
    have hnumber := (ofDayNumber?_eq_some_iff.1 hlater).1
    have hsame : later.toDay = target :=
      Day.number_injective (hnumber.trans (number_of_liesAfter hd h).symm)
    have hsince := later.valid.1
    have hyear : (later.year : Int) = target.year := congrArg Day.year hsame
    omega
  have hnegative : n < 0 := by
    have hsince := d.valid.1
    have hearlier : target.Before d.toDay := .inl (hbefore.trans_le (Int.ofNat_le.2 hsince))
    have hnumber := number_of_liesAfter hd h
    have hlt := Day.number_lt_of_before hearlier
    rw [dayNumber_eq hd] at hnumber
    rw [Int64.lt_iff_toInt_lt, Int64.toInt_zero]
    omega
  rw [plusDays_of_none hnone, if_pos hnegative]

theorem year_plusDays_le (hd : d.year ≤ lastYear) : (d.plusDays n).year ≤ lastYear := by
  cases hfound : ofDayNumber? (d.dayNumber + n.toInt) with
  | some later =>
    rw [plusDays_of_some hfound]
    exact (ofDayNumber?_eq_some_iff.1 hfound).2
  | none =>
    rw [plusDays_of_none hfound]
    split
    · decide
    · exact hd

theorem weekday_eq (hd : d.year ≤ lastYear) : (d.weekday : Int) = (d.toDay.number + 4) % 7 := by
  unfold weekday
  rw [dayNumber_eq hd]
  omega

theorem dayOfYear_eq (hd : d.year ≤ lastYear) :
    d.dayOfYear = (∑ m ∈ Finset.Ico 1 d.month, Calendar.daysInMonth d.year m) + d.day := by
  unfold dayOfYear
  rw [if_pos hd, daysBeforeMonth_eq_sum d.valid.2.1]

/-- Days are added along the calendar, also backwards: there is exactly one day so many days
after a date, and it is the one that the date is moved to, unless it lies before 1900 or
after the count. The day of the week moves on by as many days. The date that is reached is one
that the checks let through, and its day of the year counts the months before it. -/
theorem plusDays_follows_calendar (d : Date) (hd : d.year ≤ lastYear) (n : Int64) :
    (∃! target, d.toDay.LiesAfter n.toInt target) ∧
    (∀ target, d.toDay.LiesAfter n.toInt target →
      (1900 ≤ target.year → target.year ≤ lastYear →
        (d.plusDays n).toDay = target ∧
          ((d.plusDays n).weekday : Int) = (d.weekday + n.toInt) % 7) ∧
      (target.year < 1900 → d.plusDays n = first)) ∧
    ofFields? (d.plusDays n).year (d.plusDays n).month (d.plusDays n).day = .ok (d.plusDays n) ∧
    (d.plusDays n).dayOfYear =
      (∑ m ∈ Finset.Ico 1 (d.plusDays n).month, Calendar.daysInMonth (d.plusDays n).year m) +
        (d.plusDays n).day := by
  refine ⟨d.toDay.existsUnique_liesAfter n.toInt, ?_, ofFields?_fields _,
    dayOfYear_eq (year_plusDays_le hd)⟩
  intro target htarget
  refine ⟨fun hsince hlast => ?_, plusDays_eq_first hd htarget⟩
  have hday := toDay_plusDays hd htarget hsince hlast
  refine ⟨hday, ?_⟩
  rw [weekday_eq (year_plusDays_le hd), weekday_eq hd, hday, Day.liesAfter_iff.1 htarget]
  omega

/-- Two days after the 28th of February of a leap year it is March, and a week before the fifth
of January 1900 would be in 1899. -/
theorem plusDays_over_leap_day :
    ((⟨2024, 2, 28, by decide⟩ : Date).year ≤ lastYear ∧
      ((⟨2024, 2, 28, by decide⟩ : Date).plusDays 2).toDay = ⟨2024, 3, 1, by decide⟩) ∧
    (⟨1900, 1, 5, by decide⟩ : Date).plusDays (-7) = first := by
  have hleap := (plusDays_follows_calendar ⟨2024, 2, 28, by decide⟩ (by decide) 2).2.1
    ⟨2024, 3, 1, by decide⟩ (by decide)
  have hfirst := (plusDays_follows_calendar ⟨1900, 1, 5, by decide⟩ (by decide) (-7)).2.1
    ⟨1899, 12, 29, by decide⟩ (by decide)
  exact ⟨⟨by decide, (hleap.1 (by decide) (by decide)).1⟩, hfirst.2 (by decide)⟩

end Date

end TagGrid
