import TagGrid.Violation

/-! # Days of the calendar

Dates of the Gregorian calendar from 1900 on, and the count of days that orders them.
Day 0 is the first of January 1970. The count covers the years from -262143 to 262142
only; a later date has fields but no place of its own in the count.
-/

namespace TagGrid

namespace Calendar

def isLeapYear (year : Int) : Bool :=
  (year % 4 == 0 && year % 100 != 0) || year % 400 == 0

/-- The number of days of a month, January being 1; there are none in a month that no
year has. -/
def daysInMonth (year : Int) (month : Nat) : Nat :=
  match month with
  | 1 | 3 | 5 | 7 | 8 | 10 | 12 => 31
  | 4 | 6 | 9 | 11 => 30
  | 2 => if isLeapYear year then 29 else 28
  | _ => 0

/-- The days of a year before the first of a month. -/
def daysBeforeMonth (year : Int) : Nat → Nat
  | 0 => 0
  | month + 1 => daysBeforeMonth year month + daysInMonth year month

/-- The days from the first of January of year 1 to that of another year. -/
def daysBeforeYear (year : Int) : Int :=
  365 * (year - 1) + (year - 1) / 4 - (year - 1) / 100 + (year - 1) / 400

/-- The day count of calendar fields, 0 for the first of January 1970. -/
def dayNumber (year : Int) (month day : Nat) : Int :=
  daysBeforeYear year + daysBeforeMonth year month + day - daysBeforeYear 1970 - 1

/-- The month, from the given ones on, that holds a day counted from zero, with the day
of the month counted from one. -/
def monthAndDay (year : Int) : List Nat → Nat → Nat × Nat
  | [], day => (12, day + 1)
  | [month], day => (month, day + 1)
  | month :: later, day =>
    if day < daysInMonth year month then (month, day + 1)
    else monthAndDay year later (day - daysInMonth year month)

/-- The year, month and day of a day count. The calendar repeats after 400 years; in
such a period the last of the four centuries and the last of the four years of a
leap cycle are a day longer than the others. -/
def fieldsOfDay (n : Int) : Int × Nat × Nat :=
  let fromYearOne := n + daysBeforeYear 1970
  let period := fromYearOne / 146097
  let inPeriod := (fromYearOne % 146097).toNat
  let century := min 3 (inPeriod / 36524)
  let inCentury := inPeriod - century * 36524
  let cycle := inCentury / 1461
  let inCycle := inCentury - cycle * 1461
  let yearInCycle := min 3 (inCycle / 365)
  let inYear := inCycle - yearInCycle * 365
  let year := 400 * period + (100 * century + 4 * cycle + yearInCycle : Nat) + 1
  (year, monthAndDay year ((List.range 13).drop 1) inYear)

/-- The first year of the day count. -/
def firstYear : Int := -262143

/-- The last year of the day count. -/
def lastYear : Int := 262142

/-- The first day of the count. -/
def firstDay : Int := dayNumber firstYear 1 1

/-- The last day of the count. -/
def lastDay : Int := dayNumber lastYear 12 31

end Calendar

open Calendar

/-- A day of the calendar, from 1900 on. -/
structure Date where
  year : Nat
  month : Nat
  day : Nat
  valid : 1900 ≤ year ∧ 1 ≤ month ∧ month ≤ 12 ∧ 1 ≤ day ∧ day ≤ daysInMonth year month
  deriving Repr, DecidableEq

namespace Date

/-- The date with the given fields. The year is checked first, the day last. -/
def ofFields? (year : Int) (month day : Nat) : Except Violation Date :=
  if hy : year < 1900 then .error (.year year)
  else if hm : month < 1 ∨ 12 < month then .error (.month month)
  else if hd : day < 1 ∨ daysInMonth year month < day then .error (.day day year month)
  else .ok ⟨year.toNat, month, day, by
    have hyear : ((year.toNat : Nat) : Int) = year := Int.toNat_of_nonneg (by omega)
    rw [hyear]
    omega⟩

/-- The first day of 1900. -/
def first : Date := ⟨1900, 1, 1, by decide⟩

def isLeapYear (d : Date) : Bool := Calendar.isLeapYear d.year

/-- The day count of a date. Dates after the last year of the count have no place of
their own and share its first day. -/
def dayNumber (d : Date) : Int :=
  if d.year ≤ lastYear then Calendar.dayNumber d.year d.month d.day else firstDay

/-- The date at a place of the day count, if it is not before 1900. -/
def ofDayNumber? (n : Int) : Option Date :=
  if firstDay ≤ n ∧ n ≤ lastDay then
    let (year, month, day) := fieldsOfDay n
    (ofFields? year month day).toOption
  else none

/-- The date so many days later. What would lie before 1900 is the first day of 1900,
and past the end of the day count the date stays as it is. -/
def plusDays (d : Date) (days : Int64) : Date :=
  match ofDayNumber? (d.dayNumber + days.toInt) with
  | some later => later
  | none => if days < 0 then first else d

/-- The date so many days earlier: the days are negated as a 64-bit word. -/
def minusDays (d : Date) (days : Int64) : Date := d.plusDays (-days)

/-- The day of the week, 0 for Sunday. -/
def weekday (d : Date) : Nat := ((d.dayNumber + 4) % 7).toNat

/-- The day of the year, from 1. -/
def dayOfYear (d : Date) : Nat :=
  if d.year ≤ lastYear then daysBeforeMonth d.year d.month + d.day else 1

def daysInMonth (d : Date) : Nat := Calendar.daysInMonth d.year d.month

/-- The order of dates, by year, month and day. -/
def compare (a b : Date) : Ordering :=
  (Ord.compare a.year b.year).then <| (Ord.compare a.month b.month).then (Ord.compare a.day b.day)

/-- The text of a date: `YYYY-MM-DD`, with more digits for a year above 9999. -/
def text (d : Date) : List Char :=
  Text.decimalPadded 4 d.year ++ '-' :: Text.decimalPadded 2 d.month ++
    '-' :: Text.decimalPadded 2 d.day

end Date

end TagGrid
