import Mathlib.Order.Monotone.Basic
import TagGrid.Proofs.Calendar.Texts

/-! # The count of days

The day count numbers the days of the calendar in their order, one after another and none
left out: the day after a day has the next number, and every number has one day. Both hold
for all years, before 1900 too.
-/

namespace TagGrid

namespace Calendar

variable {year : Int} {month : Nat}

/-! ## Months and years -/

theorem daysInMonth_pos (year : Int) (hfirst : 1 ≤ month) (hlast : month ≤ 12) :
    1 ≤ daysInMonth year month := by
  unfold daysInMonth
  split
  all_goals grind

theorem daysBeforeMonth_succ (year : Int) (month : Nat) :
    daysBeforeMonth year (month + 1) = daysBeforeMonth year month + daysInMonth year month := rfl

theorem daysBeforeMonth_mono (year : Int) : Monotone (daysBeforeMonth year) :=
  monotone_nat_of_le_succ fun _ => Nat.le_add_right _ _

def daysInYear (year : Int) : Nat := daysBeforeMonth year 13

theorem daysInYear_eq (year : Int) : daysInYear year =
    if (year % 4 = 0 ∧ year % 100 ≠ 0) ∨ year % 400 = 0 then 366 else 365 := by
  have hleap : isLeapYear year = true ↔ (year % 4 = 0 ∧ year % 100 ≠ 0) ∨ year % 400 = 0 := by
    simp [isLeapYear]
  simp only [← hleap]
  unfold daysInYear
  cases h : isLeapYear year <;> simp [daysBeforeMonth, daysInMonth, h]

theorem daysBeforeYear_succ (year : Int) :
    daysBeforeYear (year + 1) = daysBeforeYear year + daysInYear year := by
  have h4 : year / 4 = (year - 1) / 4 + if year % 4 = 0 then 1 else 0 := by split <;> omega
  have h100 : year / 100 = (year - 1) / 100 + if year % 100 = 0 then 1 else 0 := by
    split <;> omega
  have h400 : year / 400 = (year - 1) / 400 + if year % 400 = 0 then 1 else 0 := by
    split <;> omega
  rw [daysInYear_eq]
  unfold daysBeforeYear
  rw [Int.add_sub_cancel, h4, h100, h400]
  split_ifs <;> omega

theorem daysBeforeYear_lt_iff {a b : Int} : daysBeforeYear a < daysBeforeYear b ↔ a < b := by
  unfold daysBeforeYear
  omega

/-! ## Days -/

/-- A day of the calendar, in any year. -/
@[ext]
structure Day where
  year : Int
  month : Nat
  day : Nat
  valid : 1 ≤ month ∧ month ≤ 12 ∧ 1 ≤ day ∧ day ≤ daysInMonth year month
  deriving Repr, DecidableEq

namespace Day

variable {a b : Day}

/-- The day of the year, from 1. -/
def inYear (a : Day) : Nat := daysBeforeMonth a.year a.month + a.day

/-- The place of a day in the count. -/
def number (a : Day) : Int := dayNumber a.year a.month a.day

theorem inYear_pos (a : Day) : 0 < a.inYear := Nat.add_pos_right _ a.valid.2.2.1

theorem inYear_le_month (a : Day) : a.inYear ≤ daysBeforeMonth a.year (a.month + 1) :=
  Nat.add_le_add_left a.valid.2.2.2 _

theorem inYear_le (a : Day) : a.inYear ≤ daysInYear a.year :=
  a.inYear_le_month.trans (daysBeforeMonth_mono a.year (Nat.succ_le_succ a.valid.2.1))

theorem number_eq (a : Day) :
    a.number = daysBeforeYear a.year + a.inYear - daysBeforeYear 1970 - 1 := by
  unfold number dayNumber inYear
  omega

/-- The number of a day lies between the ends of its year. -/
theorem number_in_year (a : Day) :
    daysBeforeYear a.year ≤ a.number + daysBeforeYear 1970 ∧
      a.number + daysBeforeYear 1970 < daysBeforeYear (a.year + 1) := by
  have hlow := a.inYear_pos
  have hhigh := a.inYear_le
  rw [daysBeforeYear_succ, number_eq]
  omega

/-- Days come in the order of their years, months and days. -/
def Before (a b : Day) : Prop :=
  a.year < b.year ∨ a.year = b.year ∧ (a.month < b.month ∨ a.month = b.month ∧ a.day < b.day)

theorem before_trichotomy (a b : Day) : a.Before b ∨ a = b ∨ b.Before a := by
  rw [Day.ext_iff]
  unfold Before
  omega

theorem number_lt_of_before (h : a.Before b) : a.number < b.number := by
  rcases h with hyear | ⟨hyear, h⟩
  · have hend := a.number_in_year.2
    have hstart := b.number_in_year.1
    have hyears := daysBeforeYear_lt_iff.not.2 (Int.not_lt.2 (Int.add_one_le_of_lt hyear))
    omega
  · rw [number_eq, number_eq, hyear]
    have hlt : a.inYear < b.inYear := by
      rcases h with hmonth | ⟨hmonth, hday⟩
      · have hend := a.inYear_le_month
        have hmonths : daysBeforeMonth a.year (a.month + 1) ≤ daysBeforeMonth b.year b.month :=
          hyear ▸ daysBeforeMonth_mono a.year (Nat.succ_le_of_lt hmonth)
        exact (hend.trans hmonths).trans_lt (Nat.lt_add_of_pos_right b.valid.2.2.1)
      · unfold inYear
        rw [hyear, hmonth]
        omega
    omega

theorem number_injective : Function.Injective number := by
  intro a b h
  rcases before_trichotomy a b with hbefore | heq | hbefore
  · exact absurd h (number_lt_of_before hbefore).ne
  · exact heq
  · exact absurd h (number_lt_of_before hbefore).ne'

/-! ## The day after a day -/

/-- The next day of the month, else the first of the next month, else the first of January
of the next year. -/
def next (a : Day) : Day :=
  if hday : a.day < daysInMonth a.year a.month then
    ⟨a.year, a.month, a.day + 1, by have := a.valid; omega⟩
  else if hmonth : a.month < 12 then
    ⟨a.year, a.month + 1, 1, by
      have := daysInMonth_pos a.year (Nat.le_add_left 1 a.month) hmonth
      omega⟩
  else ⟨a.year + 1, 1, 1, by simp [daysInMonth]⟩

theorem number_next (a : Day) : a.next.number = a.number + 1 := by
  have hvalid := a.valid
  unfold next
  split
  · simp only [number_eq, inYear]
    omega
  · have hend : a.inYear = daysBeforeMonth a.year (a.month + 1) := by
      rw [daysBeforeMonth_succ]
      unfold inYear
      omega
    split
    · simp only [number_eq, hend]
      simp only [inYear]
      omega
    · have hmonth : a.month = 12 := by omega
      have hyear : a.inYear = daysInYear a.year := by
        rw [hend, hmonth]
        rfl
      have hfirst : daysBeforeMonth (a.year + 1) 1 = 0 := rfl
      simp only [number_eq, hyear, daysBeforeYear_succ]
      simp only [inYear, hfirst]
      omega

theorem number_iterate_next (k : Nat) (a : Day) : (next^[k] a).number = a.number + k := by
  induction k with
  | zero => simp
  | succ k ih =>
    rw [Function.iterate_succ_apply', number_next, ih]
    omega

/-! ## The day of a number -/

/-- The month that holds a day of the year, looked for from `month` on. -/
theorem monthAndDay_spec (later : Nat) {day : Nat} (hmonth : 1 ≤ month)
    (hlater : month + later = 12) (hday : daysBeforeMonth year month + day < daysInYear year)
    {found : Nat × Nat} (hfound : monthAndDay year (List.range' month (later + 1)) day = found) :
    (1 ≤ found.1 ∧ found.1 ≤ 12 ∧ 1 ≤ found.2 ∧ found.2 ≤ daysInMonth year found.1) ∧
      daysBeforeMonth year found.1 + found.2 = daysBeforeMonth year month + day + 1 := by
  induction later generalizing month day with
  | zero =>
    obtain rfl : month = 12 := hlater
    have hyear : daysInYear year = daysBeforeMonth year 12 + daysInMonth year 12 := rfl
    subst hfound
    simp only [List.range', monthAndDay]
    omega
  | succ later ih =>
    have hsucc := daysBeforeMonth_succ year month
    simp only [List.range'_succ, monthAndDay] at hfound
    split at hfound
    · subst hfound
      simp only
      omega
    · have hothers := ih (by omega) (by omega) (by omega) hfound
      omega

theorem monthAndDay_january {day : Nat} (hday : day < daysInYear year) {found : Nat × Nat}
    (hfound : monthAndDay year (List.range' 1 12) day = found) :
    (1 ≤ found.1 ∧ found.1 ≤ 12 ∧ 1 ≤ found.2 ∧ found.2 ≤ daysInMonth year found.1) ∧
      daysBeforeMonth year found.1 + found.2 = day + 1 := by
  have hzero : daysBeforeMonth year 1 = 0 := rfl
  have hspec := monthAndDay_spec 11 (Nat.le_refl 1) rfl (by omega) hfound
  rwa [hzero, Nat.zero_add] at hspec

/-- The days before a year that stands in its place in a period, a century and a cycle. -/
theorem daysBeforeYear_of_parts (period : Int) {century cycle inCycle : Nat}
    (hcentury : century ≤ 3) (hcycle : cycle ≤ 24) (hinCycle : inCycle ≤ 3) :
    daysBeforeYear (400 * period + (100 * century + 4 * cycle + inCycle : Nat) + 1) =
      146097 * period + 36524 * century + 1461 * cycle + 365 * inCycle := by
  unfold daysBeforeYear
  omega

/-- The last year of a cycle is a leap year, but not the last of a century, unless it is the
last of the period. -/
theorem daysInYear_of_parts (period : Int) {century cycle inCycle : Nat} (hcentury : century ≤ 3)
    (hcycle : cycle ≤ 24) (hinCycle : inCycle ≤ 3) :
    daysInYear (400 * period + (100 * century + 4 * cycle + inCycle : Nat) + 1) =
      if inCycle = 3 ∧ (cycle = 24 → century = 3) then 366 else 365 := by
  rw [daysInYear_eq]
  split_ifs <;> omega

/-- The year of a number, and how many days of it come before. -/
theorem exists_fieldsOfDay (n : Int) : ∃ (year : Int) (day : Nat),
    fieldsOfDay n = (year, monthAndDay year (List.range' 1 12) day) ∧
      daysBeforeYear year + day = n + daysBeforeYear 1970 ∧ day < daysInYear year := by
  refine ⟨_, _, rfl, ?_⟩
  generalize n + daysBeforeYear 1970 = fromYearOne
  generalize hperiod : fromYearOne / 146097 = period
  generalize hinPeriod : (fromYearOne % 146097).toNat = inPeriod
  generalize hcentury : min 3 (inPeriod / 36524) = century
  generalize hinCentury : inPeriod - century * 36524 = inCentury
  generalize hcycle : inCentury / 1461 = cycle
  generalize hinCycle : inCentury - cycle * 1461 = inCycle
  generalize hyear : min 3 (inCycle / 365) = year
  have hcentury' : century ≤ 3 := by omega
  have hcycle' : cycle ≤ 24 := by omega
  have hyear' : year ≤ 3 := by omega
  rw [daysBeforeYear_of_parts period hcentury' hcycle' hyear',
    daysInYear_of_parts period hcentury' hcycle' hyear']
  split <;> omega

/-- The day of a number. -/
def ofNumber (n : Int) : Day where
  year := (fieldsOfDay n).1
  month := (fieldsOfDay n).2.1
  day := (fieldsOfDay n).2.2
  valid := by
    obtain ⟨year, day, hfields, -, hday⟩ := exists_fieldsOfDay n
    rw [hfields]
    exact (monthAndDay_january hday rfl).1

theorem number_ofNumber (n : Int) : (ofNumber n).number = n := by
  obtain ⟨year, day, hfields, hyear, hday⟩ := exists_fieldsOfDay n
  have hmonth := (monthAndDay_january hday rfl).2
  rw [number_eq]
  simp only [ofNumber, inYear, hfields, hmonth]
  omega

theorem ofNumber_number (a : Day) : ofNumber a.number = a :=
  number_injective (number_ofNumber a.number)

theorem number_lt_daysBeforeYear_iff (a : Day) (year : Int) :
    a.number + daysBeforeYear 1970 < daysBeforeYear year ↔ a.year < year := by
  have hyear := a.number_in_year
  constructor
  · intro h
    exact daysBeforeYear_lt_iff.1 (Int.lt_of_le_of_lt hyear.1 h)
  · intro h
    have hend := daysBeforeYear_lt_iff.not.2 (Int.not_lt.2 (Int.add_one_le_of_lt h))
    omega

theorem number_le_lastDay_iff (a : Day) : a.number ≤ lastDay ↔ a.year ≤ lastYear := by
  have hyear := a.number_lt_daysBeforeYear_iff (lastYear + 1)
  have hlast : lastDay + daysBeforeYear 1970 + 1 = daysBeforeYear (lastYear + 1) := by decide
  omega

theorem firstDay_le_number_iff (a : Day) : firstDay ≤ a.number ↔ firstYear ≤ a.year := by
  have hyear := a.number_lt_daysBeforeYear_iff firstYear
  have hfirst : firstDay + daysBeforeYear 1970 = daysBeforeYear firstYear := by decide
  omega

end Day

end Calendar

open Calendar

/-! ## Dates -/

namespace Date

variable {d e : Date} {a : Day} {n : Int}

def toDay (d : Date) : Day := ⟨d.year, d.month, d.day, d.valid.2⟩

theorem toDay_of_ofFields? (h : ofFields? a.year a.month a.day = .ok d) : d.toDay = a := by
  unfold ofFields? at h
  split at h
  · cases h
  split at h
  · cases h
  split at h
  · cases h
  · cases h
    exact Day.ext (Int.toNat_of_nonneg (by omega)) rfl rfl

theorem dayNumber_eq (hd : d.year ≤ lastYear) : d.dayNumber = d.toDay.number := if_pos hd

/-- The date at a place of the count is the one with that number, if there is one and its year
is in the count. -/
theorem ofDayNumber?_eq_some_iff :
    ofDayNumber? n = some d ↔ d.toDay.number = n ∧ d.year ≤ lastYear := by
  have hunfold : ofDayNumber? n = if firstDay ≤ n ∧ n ≤ lastDay then
      (ofFields? (Day.ofNumber n).year (Day.ofNumber n).month (Day.ofNumber n).day).toOption
    else none := rfl
  rw [hunfold]
  constructor
  · intro h
    split at h
    · rename_i hrange
      have hday : d.toDay = Day.ofNumber n := by
        cases hfields : ofFields? (Day.ofNumber n).year (Day.ofNumber n).month
            (Day.ofNumber n).day with
        | error v =>
          rw [hfields] at h
          cases h
        | ok e =>
          rw [hfields] at h
          cases h
          exact toDay_of_ofFields? hfields
      have hnumber : d.toDay.number = n := hday ▸ Day.number_ofNumber n
      exact ⟨hnumber, d.toDay.number_le_lastDay_iff.1 (hnumber ▸ hrange.2)⟩
    · cases h
  · rintro ⟨rfl, hyear⟩
    have hfirst : firstYear ≤ d.year := by
      have hsince := d.valid.1
      unfold firstYear
      omega
    rw [if_pos ⟨d.toDay.firstDay_le_number_iff.2 hfirst, d.toDay.number_le_lastDay_iff.2 hyear⟩,
      Day.ofNumber_number]
    exact congrArg Except.toOption (ofFields?_fields d)

end Date

end TagGrid
