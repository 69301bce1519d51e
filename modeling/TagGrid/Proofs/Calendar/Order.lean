import TagGrid.Proofs.Calendar.Instants
import TagGrid.Proofs.Value.Order

/-! # The order of dates and instants

Dates, times and timestamps are ordered by their fields, and also by one number each: the place
in the day count, the milliseconds of the day, the instant. The numbers are positional in the
fields, so for days of the count the two orders are the same. Dates after the count share its
first day, and there the order of instants is lost.
-/

namespace TagGrid

open Calendar

/-! ## Positions -/

theorem compare_sub_right (x y z : Int) : Ord.compare (x - z) (y - z) = Ord.compare x y := by
  simp only [Int.compare_eq_ite_lt, Int.sub_lt_sub_right_iff]

theorem mul_add_lt {m n r s base : Int} (h : m < n) (hr : r < base) (hbase : 0 ≤ base)
    (hs : 0 ≤ s) : m * base + r < n * base + s := by
  have hstep : (m + 1) * base ≤ n * base := Int.mul_le_mul_of_nonneg_right h hbase
  rw [Int.add_mul, Int.one_mul] at hstep
  omega

/-- Two numbers with one more digit each are compared by what stands before, then by that
digit. -/
theorem compare_mul_add (m n : Int) {r s base : Int} (hr : 0 ≤ r ∧ r < base)
    (hs : 0 ≤ s ∧ s < base) : Ord.compare (m * base + r) (n * base + s) =
      (Ord.compare m n).then (Ord.compare r s) := by
  have hbase : 0 ≤ base := hr.1.trans hr.2.le
  rcases Int.lt_trichotomy m n with h | rfl | h
  · rw [Int.compare_eq_lt.2 h, Int.compare_eq_lt.2 (mul_add_lt h hr.2 hbase hs.1)]
    rfl
  · rw [Int.compare_eq_eq.2 rfl, Ordering.eq_then]
    simp only [Int.compare_eq_ite_lt, Int.add_lt_add_iff_left]
  · rw [Int.compare_eq_gt.2 h, Int.compare_eq_gt.2 (mul_add_lt h hs.2 hbase hr.1)]
    rfl

/-! ## Dates and times -/

namespace Date

variable {d e : Date}

theorem compare_eq_lt_iff : d.compare e = .lt ↔ d.toDay.Before e.toDay := by
  simp only [compare, Ordering.then_eq_lt, Nat.compare_eq_lt, Nat.compare_eq_eq, Day.Before,
    toDay, Int.ofNat_lt, Int.ofNat_inj]

theorem compare_swap (d e : Date) : e.compare d = (d.compare e).swap := by
  simp only [compare, Ordering.swap_then, Nat.compare_swap]

theorem compare_self (d : Date) : d.compare d = .eq := by
  simp only [compare, Std.ReflOrd.compare_self, Ordering.eq_then]

theorem toDay_injective : Function.Injective toDay := by
  intro d e h
  exact Except.ok.inj ((ofFields?_eq_ok_iff.2 h).symm.trans (ofFields?_fields e))

/-- Dates are in the order of their numbers. -/
theorem compare_eq_compare_number (d e : Date) :
    d.compare e = Ord.compare d.toDay.number e.toDay.number := by
  rcases Day.before_trichotomy d.toDay e.toDay with h | h | h
  · rw [compare_eq_lt_iff.2 h, Int.compare_eq_lt.2 (Day.number_lt_of_before h)]
  · rw [toDay_injective h, compare_self, Int.compare_eq_eq.2 rfl]
  · rw [compare_swap e d, compare_eq_lt_iff.2 h, Int.compare_eq_gt.2 (Day.number_lt_of_before h)]
    rfl

theorem compare_eq_eq_iff : d.compare e = .eq ↔ d = e := by
  rw [compare_eq_compare_number, Int.compare_eq_eq, Day.number_injective.eq_iff,
    toDay_injective.eq_iff]

theorem number_first : first.toDay.number + daysBeforeYear 1970 = daysBeforeYear 1900 := by decide

theorem number_first_le (d : Date) : first.toDay.number ≤ d.toDay.number := by
  have hsince := d.toDay.number_lt_daysBeforeYear_iff 1900
  have hfirst := number_first
  have hyear : ¬ d.toDay.year < 1900 := Int.not_lt.2 (Int.ofNat_le.2 d.valid.1)
  omega

/-- A date after the count has the number of its first day. -/
theorem dayNumber_of_late (h : lastYear < d.year) : d.dayNumber = firstDay :=
  if_neg (Int.not_le.2 h)

theorem firstDay_lt_dayNumber (h : d.year ≤ lastYear) : firstDay < d.dayNumber := by
  have hfirst : firstDay < first.toDay.number := by decide
  rw [dayNumber_eq h]
  exact Int.lt_of_lt_of_le hfirst d.number_first_le

/-- The numbers compare as the dates do in the count, the other way around at its end, and not at
all after it. -/
theorem compare_dayNumber (d e : Date) : Ord.compare d.dayNumber e.dayNumber =
    if d.year ≤ lastYear ∧ e.year ≤ lastYear then d.compare e
    else if lastYear < d.year ∧ lastYear < e.year then .eq
    else (d.compare e).swap := by
  have hcross {d e : Date} (hd : d.year ≤ lastYear) (he : lastYear < e.year) :
      e.dayNumber < d.dayNumber ∧ d.compare e = .lt :=
    ⟨dayNumber_of_late he ▸ firstDay_lt_dayNumber hd,
      compare_eq_lt_iff.2 (.inl (Int.lt_of_le_of_lt hd he))⟩
  rcases Int.lt_or_le lastYear d.year with hd | hd <;>
    rcases Int.lt_or_le lastYear e.year with he | he
  · rw [if_neg (by omega), if_pos ⟨hd, he⟩, dayNumber_of_late hd, dayNumber_of_late he]
    exact Int.compare_eq_eq.2 rfl
  · obtain ⟨hnumber, hdates⟩ := hcross he hd
    rw [if_neg (by omega), if_neg (by omega), ← compare_swap, hdates]
    exact Int.compare_eq_lt.2 hnumber
  · obtain ⟨hnumber, hdates⟩ := hcross hd he
    rw [if_neg (by omega), if_neg (by omega), hdates]
    exact Int.compare_eq_gt.2 hnumber
  · rw [if_pos ⟨hd, he⟩, dayNumber_eq hd, dayNumber_eq he, compare_eq_compare_number]

/-- Of two dates the later one has the greater number exactly if it is in the count. -/
theorem dayNumber_lt_iff (h : d.compare e = .lt) :
    d.dayNumber < e.dayNumber ↔ e.year ≤ lastYear := by
  have hyears : (d.year : Int) ≤ e.year := by
    rcases compare_eq_lt_iff.1 h with hyear | ⟨hyear, -⟩
    · exact hyear.le
    · exact hyear.le
  rw [← Int.compare_eq_lt, compare_dayNumber, h]
  by_cases he : e.year ≤ lastYear
  · simp [he, hyears.trans he]
  · rw [if_neg fun hboth => he hboth.2]
    split <;> simp [he]

/-- Two dates and their numbers compare alike in the count, and after it if they are one. -/
theorem compare_dayNumber_eq_iff : Ord.compare d.dayNumber e.dayNumber = d.compare e ↔
    d.year ≤ lastYear ∧ e.year ≤ lastYear ∨ d = e := by
  rw [compare_dayNumber, ← compare_eq_eq_iff]
  by_cases hcount : d.year ≤ lastYear ∧ e.year ≤ lastYear
  · simp [hcount]
  · rw [if_neg hcount, or_iff_right hcount]
    split
    · exact eq_comm
    · cases d.compare e <;> decide

end Date

namespace TimeOfDay

/-- The order of times by hour, minute, second and millisecond. -/
def compareFields (a b : TimeOfDay) : Ordering :=
  (Ord.compare a.hour b.hour).then <| (Ord.compare a.minute b.minute).then <|
    (Ord.compare a.second b.second).then (Ord.compare a.millisecond b.millisecond)

/-- Times are in the order of their milliseconds of the day. -/
theorem compareFields_eq (a b : TimeOfDay) : a.compareFields b = a.compare b := by
  obtain ⟨ha, hb⟩ := And.intro a.valid b.valid
  unfold compareFields compare millisOfDay
  simp only [← Value.compare_natCast, Int.natCast_add, Int.natCast_mul]
  rw [compare_mul_add _ _ (by omega) (by omega), compare_mul_add _ _ (by omega) (by omega),
    compare_mul_add _ _ (by omega) (by omega), Ordering.then_assoc, Ordering.then_assoc]

end TimeOfDay

namespace Timestamp

variable {a b : Timestamp}

/-- The order of timestamps by the fields of their dates, then by those of their times. -/
def compareFields (a b : Timestamp) : Ordering :=
  (a.date.compare b.date).then (a.time.compareFields b.time)

/-- At one offset instants are compared by the numbers of the dates, then by the times. -/
theorem compare_of_offset (h : a.offset = b.offset) : a.compare b =
    (Ord.compare a.date.dayNumber b.date.dayNumber).then (a.time.compareFields b.time) := by
  have hday (t : TimeOfDay) : 0 ≤ (t.millisOfDay : Int) ∧ (t.millisOfDay : Int) < millisPerDay :=
    ⟨Int.natCast_nonneg _, Int.ofNat_lt.2 t.millisOfDay_lt⟩
  unfold compare millis
  rw [h, compare_sub_right, compare_mul_add _ _ (hday a.time) (hday b.time),
    Value.compare_natCast, TimeOfDay.compareFields_eq]
  rfl

/-- Instants are in the order of the fields in the count, on one day, and otherwise only after the
count, if the times happen to be in the order of the dates. -/
theorem compare_eq_compareFields_iff (h : a.offset = b.offset) : a.compare b = a.compareFields b ↔
    (a.date.year ≤ lastYear ∧ b.date.year ≤ lastYear ∨ a.date = b.date) ∨
      (lastYear < a.date.year ∧ lastYear < b.date.year ∧
        a.time.compareFields b.time = a.date.compare b.date) := by
  rw [compare_of_offset h, compareFields, ← Date.compare_dayNumber_eq_iff, Date.compare_dayNumber]
  by_cases hcount : a.date.year ≤ lastYear ∧ b.date.year ≤ lastYear
  · simp [hcount]
  · rw [if_neg hcount]
    generalize a.date.compare b.date = dates
    generalize a.time.compareFields b.time = times
    by_cases hlate : lastYear < a.date.year ∧ lastYear < b.date.year
    · rw [if_pos hlate, and_iff_right hlate.1, and_iff_right hlate.2]
      cases dates <;> cases times <;> decide
    · rw [if_neg hlate, or_iff_left fun hboth => hlate ⟨hboth.1, hboth.2.1⟩]
      cases dates <;> cases times <;> decide

theorem compare_midnight (d e : Date) (zone : Zone) :
    (midnight d zone).compare (midnight e zone) = Ord.compare d.dayNumber e.dayNumber := by
  have hoffset : (midnight d zone).offset = (midnight e zone).offset := rfl
  rw [compare_of_offset hoffset]
  exact Ordering.then_eq

/-- Days begin one after another in every timezone, timestamps with one offset are in the order of
their fields, and values with a date and values with a timestamp compare alike: this is so for the
days of the count. A day after it does not begin after any other day. -/
theorem instants_follow_calendar (d e : Date) (zone : Zone) :
    (d.compare e = .lt →
      ((midnight d zone).millis < (midnight e zone).millis ↔ e.year ≤ lastYear)) ∧
    (∀ a b : Timestamp, a.date = d → b.date = e → a.offset = b.offset →
      (a.compare b = a.compareFields b ↔
        (d.year ≤ lastYear ∧ e.year ≤ lastYear ∨ d = e) ∨
          (lastYear < d.year ∧ lastYear < e.year ∧
            a.time.compareFields b.time = d.compare e))) ∧
    ((Value.dateTime (midnight d zone)).compare? (.dateTime (midnight e zone)) =
        (Value.date d).compare? (.date e) ↔
      d.year ≤ lastYear ∧ e.year ≤ lastYear ∨ d = e) := by
  refine ⟨fun h => ?_, ?_, ?_⟩
  · rw [← Date.dayNumber_lt_iff h, ← Int.compare_eq_lt, ← Int.compare_eq_lt, ← compare_midnight]
    rfl
  · rintro a b rfl rfl h
    exact compare_eq_compareFields_iff h
  · rw [← Date.compare_dayNumber_eq_iff, ← compare_midnight d e zone]
    exact Option.some_inj

/-- The last millisecond of a leap day, in a zone three quarters of an hour off the full hours. -/
def endOfFebruary : Timestamp where
  date := ⟨2024, 2, 29, by decide⟩
  time := ⟨23, 59, 59, 999, by decide⟩
  zone := ⟨⟨"Kathmandu", "Asia/Kathmandu", 345⟩, by decide⟩
  offset := 20700
  valid := by decide

def startOfMarch : Timestamp := midnight ⟨2024, 3, 1, by decide⟩ endOfFebruary.zone

theorem leap_day_comes_before_march :
    (endOfFebruary.date.compare startOfMarch.date = .lt ∧
      (midnight endOfFebruary.date .utc).millis < (midnight startOfMarch.date .utc).millis) ∧
    (endOfFebruary.offset = startOfMarch.offset ∧ endOfFebruary.compare startOfMarch = .lt) ∧
    (Value.dateTime (midnight endOfFebruary.date .utc)).compare?
      (.dateTime (midnight startOfMarch.date .utc)) = some .lt := by
  obtain ⟨hdays, hfields, hvalues⟩ :=
    instants_follow_calendar endOfFebruary.date startOfMarch.date .utc
  have hdates : endOfFebruary.date.compare startOfMarch.date = .lt := by decide
  have hcount : endOfFebruary.date.year ≤ lastYear ∧ startOfMarch.date.year ≤ lastYear ∨
      endOfFebruary.date = startOfMarch.date := .inl ⟨by decide, by decide⟩
  have hmillis := (hdays hdates).2 (by decide)
  have hcompare := (hfields endOfFebruary startOfMarch rfl rfl rfl).2 (.inl hcount)
  have hvalue := hvalues.2 hcount
  exact ⟨⟨hdates, hmillis⟩, ⟨rfl, hcompare.trans (by decide)⟩,
    hvalue.trans (congrArg some hdates)⟩

/-- The first day after the count begins long before a day of our time. -/
theorem day_after_count_begins_early :
    ∃ d e, Date.ofFields? 2024 1 1 = .ok d ∧ Date.ofFields? 262143 1 1 = .ok e ∧
      d.compare e = .lt ∧ (midnight e .utc).millis < (midnight d .utc).millis :=
  ⟨⟨2024, 1, 1, by decide⟩, ⟨262143, 1, 1, by decide⟩, rfl, rfl, by decide, by decide⟩

end Timestamp

end TagGrid
