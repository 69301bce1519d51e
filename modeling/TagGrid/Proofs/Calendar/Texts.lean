import TagGrid.Proofs.Text.Digits
import TagGrid.Proofs.Zinc.Places

/-! # The texts of dates and times

Dates, times and timestamps have their fields in fixed places, so their texts are
examined field by field and give the same fields again. A date takes four places for
its year and is read back only if the year fits into them.
-/

namespace TagGrid

namespace Text

theorem utf8Size_of_ascii {c : Char} (h : c.toNat < 128) : c.utf8Size = 1 := by
  rw [Char.utf8Size_eq_one_iff, UInt32.le_iff_toNat_le]
  exact Nat.le_of_lt_succ h

/-- In ASCII every character takes one byte. -/
theorem byteLength_of_ascii {cs : List Char} (h : ∀ c ∈ cs, c.toNat < 128) :
    byteLength cs = cs.length := by
  induction cs with
  | nil => rfl
  | cons c cs ih =>
    have hsize := utf8Size_of_ascii (h c List.mem_cons_self)
    have hrest := ih fun d hd => h d (List.mem_cons_of_mem _ hd)
    simp only [byteLength, List.length_cons, hsize, hrest]
    omega

theorem splitAtByte?_of_ascii {cs : List Char} (h : ∀ c ∈ cs, c.toNat < 128) (rest : List Char) :
    splitAtByte? cs.length (cs ++ rest) = some (cs, rest) := by
  induction cs with
  | nil => simp [splitAtByte?]
  | cons c cs ih =>
    have hsize := utf8Size_of_ascii (h c List.mem_cons_self)
    have hrest := ih fun d hd => h d (List.mem_cons_of_mem _ hd)
    simp only [List.length_cons, List.cons_append, splitAtByte?, hsize]
    simp [hrest]

end Text

open Text

theorem exists_decimalPadded_two {n : Nat} (h : n < 100) : ∃ a b, decimalPadded 2 n = [a, b] := by
  have hlen : (decimalPadded 2 n).length = 2 := length_decimalPadded (by decide) h
  match decimalPadded 2 n, hlen with
  | [a, b], _ => exact ⟨a, b, rfl⟩

theorem Calendar.daysInMonth_le (year : Int) (month : Nat) : daysInMonth year month ≤ 31 := by
  unfold daysInMonth
  split <;> try decide
  split <;> decide

theorem Date.ofFields?_fields (d : Date) : ofFields? d.year d.month d.day = .ok d := by
  obtain ⟨hyear, hmonth, hmonth', hday, hday'⟩ := d.valid
  unfold ofFields?
  rw [dif_neg (by omega), dif_neg (by omega), dif_neg (by omega)]
  rfl

theorem TimeOfDay.ofFields?_fields (t : TimeOfDay) :
    ofFields? t.hour t.minute t.second t.millisecond = .ok t := by
  obtain ⟨hhour, hminute, hsecond, hmillisecond⟩ := t.valid
  unfold ofFields?
  rw [dif_neg (by omega), dif_neg (by omega), dif_neg (by omega), dif_neg (by omega)]

theorem Date.fields_of_ofFields? {year month day : Nat} {d : Date}
    (h : ofFields? year month day = .ok d) : d.year = year ∧ d.month = month ∧ d.day = day := by
  unfold ofFields? at h
  split at h
  · cases h
  split at h
  · cases h
  split at h
  · cases h
  · cases h
    exact ⟨rfl, rfl, rfl⟩

theorem TimeOfDay.fields_of_ofFields? {hour minute second millisecond : Nat} {t : TimeOfDay}
    (h : ofFields? hour minute second millisecond = .ok t) :
    t.hour = hour ∧ t.minute = minute ∧ t.second = second ∧ t.millisecond = millisecond := by
  unfold ofFields? at h
  split at h
  · cases h
  split at h
  · cases h
  split at h
  · cases h
  split at h
  · cases h
  · cases h
    exact ⟨rfl, rfl, rfl, rfl⟩

/-! ## Names of timezones -/

namespace Zone

/-- No short name of the table is the short or the long name of an earlier entry. -/
theorem find?_entry : ∀ e ∈ zoneTable, (find? e.name).map entry = some e := by decide +kernel

theorem names_wellFormed : ∀ e ∈ zoneTable,
    (e.name.toList.head?.any Char.isUpper && e.name.toList.all isNameChar) = true := by
  decide +kernel

theorem ofName?_name (z : Zone) : ofName? z.name = .ok z := by
  obtain ⟨found, hfound, hentry⟩ := Option.map_eq_some_iff.1 (find?_entry z.entry z.listed)
  obtain rfl : found = z := by
    cases found
    cases z
    cases hentry
    rfl
  unfold ofName? name
  rw [hfound]

theorem exists_name_cons (z : Zone) :
    ∃ c cs, z.name.toList = c :: cs ∧ c.isUpper = true ∧ ∀ d ∈ c :: cs, isNameChar d = true := by
  have hname := names_wellFormed z.entry z.listed
  cases hcs : z.entry.name.toList with
  | nil => simp [hcs] at hname
  | cons c cs =>
    rw [hcs, List.head?_cons, Option.any_some, Bool.and_eq_true, List.all_eq_true] at hname
    exact ⟨c, cs, hcs, hname.1, hname.2⟩

end Zone

namespace Zinc

theorem length_date_text {d : Date} (h : d.year ≤ 9999) : d.text.length = 10 := by
  have hvalid := d.valid
  have hdays := Calendar.daysInMonth_le d.year d.month
  unfold Date.text
  simp only [List.length_append, List.length_cons]
  rw [length_decimalPadded (by decide) (by omega), length_decimalPadded (by decide) (by omega),
    length_decimalPadded (by decide) (by omega)]

/-! ## Dates and times -/

/-- Nothing but so many digits, which write a number. -/
structure Digits (width n : Nat) (cs : List Char) : Prop where
  length : cs.length = width
  isDigit : ∀ c ∈ cs, c.isDigit = true
  value : Nat.ofDigitChars 10 cs 0 = n

/-- The text `YYYY-MM-DD` of a date with these fields. -/
def DateText (year month day : Nat) (cs : List Char) : Prop :=
  ∃ y m d, Digits 4 year y ∧ Digits 2 month m ∧ Digits 2 day d ∧
    cs = y ++ '-' :: (m ++ '-' :: d)

/-- What follows the seconds of a time: nothing, or a point and one to three digits, which
count milliseconds in full. -/
inductive FractionText : Nat → List Char → Prop
  | none : FractionText 0 []
  | point {places n : Nat} {f : List Char} : 1 ≤ places → places ≤ 3 → Digits places n f →
      FractionText (n * 10 ^ (3 - places)) ('.' :: f)

/-- The text `hh:mm:ss` or `hh:mm:ss.fff` of a time with these fields. -/
def ClockText (hour minute second millisecond : Nat) (cs : List Char) : Prop :=
  ∃ h m s f, Digits 2 hour h ∧ Digits 2 minute m ∧ Digits 2 second s ∧
    FractionText millisecond f ∧ cs = h ++ ':' :: (m ++ ':' :: (s ++ f))

theorem digits_iff {width n : Nat} {cs : List Char} (hwidth : 0 < width) :
    Digits width n cs ↔ cs.length = width ∧ digits? cs = some n := by
  unfold digits?
  constructor
  · rintro ⟨hlength, hdigits, hvalue⟩
    have hne : cs ≠ [] := by
      rintro rfl
      rw [List.length_nil] at hlength
      omega
    exact ⟨hlength, by rw [if_pos ⟨hne, List.all_eq_true.2 hdigits⟩, hvalue]⟩
  · rintro ⟨hlength, h⟩
    split at h
    · rename_i hdigits
      exact ⟨hlength, List.all_eq_true.1 hdigits.2, Option.some.inj h⟩
    · cases h

theorem digits_decimalPadded {width n : Nat} (hwidth : 0 < width) (h : n < 10 ^ width) :
    Digits width n (decimalPadded width n) :=
  ⟨length_decimalPadded hwidth h, isDigit_of_mem_decimalPadded, ofDigitChars_decimalPadded width n⟩

theorem Digits.exists_two {n : Nat} {cs : List Char} (h : Digits 2 n cs) :
    ∃ a b, cs = [a, b] ∧ digits? [a, b] = some n := by
  obtain ⟨hlength, hdigits⟩ := (digits_iff (by decide)).1 h
  match cs, hlength with
  | [a, b], _ => exact ⟨a, b, rfl, hdigits⟩

theorem Digits.exists_four {n : Nat} {cs : List Char} (h : Digits 4 n cs) :
    ∃ a b c d, cs = [a, b, c, d] ∧ digits? [a, b, c, d] = some n := by
  obtain ⟨hlength, hdigits⟩ := (digits_iff (by decide)).1 h
  match cs, hlength with
  | [a, b, c, d], _ => exact ⟨a, b, c, d, rfl, hdigits⟩

theorem Digits.of_digits? {width n : Nat} {cs : List Char} (hwidth : 0 < width)
    (hlength : cs.length = width) (h : digits? cs = some n) : Digits width n cs :=
  (digits_iff hwidth).2 ⟨hlength, h⟩

/-- A date is examined as the one whose text it is. -/
theorem examineDate_eq_ok {cs : List Char} {d : Date} :
    examineDate cs = .ok d ↔ DateText d.year d.month d.day cs := by
  constructor
  · intro h
    unfold examineDate at h
    simp only at h
    split at h
    · rename_i hshape
      obtain ⟨hlength, hfirst, hsecond⟩ := hshape
      match cs, hlength with
      | [y₁, y₂, y₃, y₄, c, m₁, m₂, c', d₁, d₂], _ =>
        obtain rfl : c = '-' := Option.some.inj hfirst
        obtain rfl : c' = '-' := Option.some.inj hsecond
        split at h
        · rename_i year month day hyear hmonth hday
          obtain ⟨rfl, rfl, rfl⟩ := Date.fields_of_ofFields? (mapError_eq_ok.1 h)
          exact ⟨[y₁, y₂, y₃, y₄], [m₁, m₂], [d₁, d₂], .of_digits? (by decide) rfl hyear,
            .of_digits? (by decide) rfl hmonth, .of_digits? (by decide) rfl hday, rfl⟩
        · cases h
    · cases h
  · rintro ⟨y, m, day, hyear, hmonth, hday, rfl⟩
    obtain ⟨y₁, y₂, y₃, y₄, rfl, hyear'⟩ := hyear.exists_four
    obtain ⟨m₁, m₂, rfl, hmonth'⟩ := hmonth.exists_two
    obtain ⟨d₁, d₂, rfl, hday'⟩ := hday.exists_two
    simp [examineDate, part, hyear', hmonth', hday', Date.ofFields?_fields]
    rfl

theorem examineFraction_eq_ok {text : String} {cs : List Char} {millisecond : Nat} :
    examineFraction text cs = .ok millisecond ↔ FractionText millisecond cs := by
  constructor
  · intro h
    unfold examineFraction at h
    split at h
    · cases h
      exact .none
    · rename_i f
      split at h
      · rename_i hbytes
        split at h
        · rename_i n hdigits
          cases h
          have hascii : ∀ c ∈ f, c.toNat < 128 := by
            unfold digits? at hdigits
            split at hdigits
            · rename_i hall
              intro c hc
              exact toNat_lt_of_isDigit (List.all_eq_true.1 hall.2 c hc)
            · cases hdigits
          rw [byteLength_of_ascii hascii] at hbytes
          exact .point hbytes.1 hbytes.2 (.of_digits? hbytes.1 rfl hdigits)
        · cases h
      · cases h
    · cases h
  · intro h
    cases h with
    | none => rfl
    | @point places n f hpos hle hdigits =>
      obtain ⟨hlength, hread⟩ := (digits_iff hpos).1 hdigits
      have hbytes : byteLength f = places := by
        rw [byteLength_of_ascii fun c hc => toNat_lt_of_isDigit (hdigits.isDigit c hc), hlength]
      simp [examineFraction, hbytes, hpos, hle, hread, hlength]

/-- A time is examined as the one whose text it is. -/
theorem examineTime_eq_ok {cs : List Char} {t : TimeOfDay} :
    examineTime cs = .ok t ↔ ClockText t.hour t.minute t.second t.millisecond cs := by
  constructor
  · intro h
    unfold examineTime at h
    simp only at h
    split at h
    · rename_i hshape
      obtain ⟨hfirst, hsecond⟩ := hshape
      match cs, hsecond with
      | h₁ :: h₂ :: c :: m₁ :: m₂ :: c' :: rest, hsecond =>
        obtain rfl : c = ':' := Option.some.inj hfirst
        obtain rfl : c' = ':' := Option.some.inj hsecond
        split at h
        · rename_i hour minute s₁ s₂ second hhour hminute hpart hread
          match rest, hpart, hread with
          | a :: b :: f, _, hread =>
            split at h
            · rename_i millisecond hfraction
              obtain ⟨rfl, rfl, rfl, rfl⟩ := TimeOfDay.fields_of_ofFields? (mapError_eq_ok.1 h)
              exact ⟨[h₁, h₂], [m₁, m₂], [a, b], f, .of_digits? (by decide) rfl hhour,
                .of_digits? (by decide) rfl hminute, .of_digits? (by decide) rfl hread,
                examineFraction_eq_ok.1 hfraction, rfl⟩
            · cases h
        · cases h
    · cases h
  · rintro ⟨h, m, s, f, hhour, hminute, hsecond, hfraction, rfl⟩
    obtain ⟨h₁, h₂, rfl, hhour'⟩ := hhour.exists_two
    obtain ⟨m₁, m₂, rfl, hminute'⟩ := hminute.exists_two
    obtain ⟨s₁, s₂, rfl, hsecond'⟩ := hsecond.exists_two
    have hread (text : String) : examineFraction text f = .ok t.millisecond :=
      examineFraction_eq_ok.2 hfraction
    simp only [examineTime, part, List.cons_append, List.nil_append, List.drop_zero,
      List.drop_succ_cons, List.take_succ_cons, List.take_zero, List.getElem?_cons_succ,
      List.getElem?_cons_zero, hhour', hminute', hsecond', hread, and_self, if_true,
      TimeOfDay.ofFields?_fields]
    rfl

theorem dateText_text {d : Date} (h : d.year ≤ 9999) : DateText d.year d.month d.day d.text := by
  have hvalid := d.valid
  have hdays := Calendar.daysInMonth_le d.year d.month
  refine ⟨_, _, _, digits_decimalPadded (by decide) (by omega),
    digits_decimalPadded (by decide) (by omega), digits_decimalPadded (by decide) (by omega), ?_⟩
  simp [Date.text]

theorem clockText_text (t : TimeOfDay) :
    ClockText t.hour t.minute t.second t.millisecond t.text := by
  have hvalid := t.valid
  have hfraction : FractionText t.millisecond
      (if t.millisecond = 0 then [] else '.' :: decimalPadded 3 t.millisecond) := by
    split
    · rename_i hzero
      rw [hzero]
      exact .none
    · have hpoint := FractionText.point (by decide) (Nat.le_refl 3)
        (digits_decimalPadded (by decide) (show t.millisecond < 10 ^ 3 by omega))
      rwa [Nat.sub_self, Nat.pow_zero, Nat.mul_one] at hpoint
  refine ⟨_, _, _, _, digits_decimalPadded (by decide) (by omega),
    digits_decimalPadded (by decide) (by omega), digits_decimalPadded (by decide) (by omega),
    hfraction, ?_⟩
  simp [TimeOfDay.text]

theorem examineDate_text {d : Date} (h : d.year ≤ 9999) : examineDate d.text = .ok d :=
  examineDate_eq_ok.2 (dateText_text h)

theorem examineTime_text (t : TimeOfDay) : examineTime t.text = .ok t :=
  examineTime_eq_ok.2 (clockText_text t)

theorem examineOffset_text {offset : Int} (hvalid : ValidOffset offset) (hne : offset ≠ 0) :
    examineOffset (Timestamp.offsetText offset) = .ok offset := by
  obtain ⟨hrange, hminutes⟩ := hvalid
  obtain ⟨h₁, h₂, hhour⟩ := exists_decimalPadded_two (n := offset.natAbs / 3600) (by omega)
  obtain ⟨m₁, m₂, hminute⟩ := exists_decimalPadded_two (n := offset.natAbs % 3600 / 60) (by omega)
  have hhour' : digits? [h₁, h₂] = some (offset.natAbs / 3600) :=
    hhour ▸ digits?_decimalPadded 2 (offset.natAbs / 3600)
  have hminute' : digits? [m₁, m₂] = some (offset.natAbs % 3600 / 60) :=
    hminute ▸ digits?_decimalPadded 2 (offset.natAbs % 3600 / 60)
  have htext : Timestamp.offsetText offset =
      [if offset < 0 then '-' else '+', h₁, h₂, ':', m₁, m₂] := by
    simp [Timestamp.offsetText, hne, hhour, hminute]
  have hseconds : offset.natAbs / 3600 * 3600 + offset.natAbs % 3600 / 60 * 60 = offset.natAbs := by
    omega
  rw [htext]
  by_cases hneg : offset < 0
  · have hsign : -(offset.natAbs : Int) = offset := by omega
    simp only [hneg, if_true, examineOffset, part, or_true, List.drop_zero, List.drop_succ_cons,
      List.take_succ_cons, List.take_zero, List.getElem?_cons_succ, List.getElem?_cons_zero, hhour',
      hminute', hseconds, hsign]
  · have hsign : (offset.natAbs : Int) = offset := by omega
    have hplus : '+' ≠ '-' := by decide
    simp only [hneg, if_false, examineOffset, part, or_false, if_true, List.drop_zero,
      List.drop_succ_cons, List.take_succ_cons, List.take_zero, List.getElem?_cons_succ,
      List.getElem?_cons_zero, hhour', hminute', hseconds, hplus, hsign]

/-! ## Timestamps -/

theorem isAscii_of_mem_date_text {d : Date} : ∀ c ∈ d.text, c.toNat < 128 := by
  intro c hc
  simp only [Date.text, List.mem_append, List.mem_cons] at hc
  rcases hc with (hc | rfl | hc) | rfl | hc
  · exact toNat_lt_of_isDigit (isDigit_of_mem_decimalPadded c hc)
  · decide
  · exact toNat_lt_of_isDigit (isDigit_of_mem_decimalPadded c hc)
  · decide
  · exact toNat_lt_of_isDigit (isDigit_of_mem_decimalPadded c hc)

theorem isAscii_of_mem_time_text {t : TimeOfDay} : ∀ c ∈ t.text, c.toNat < 128 := by
  intro c hc
  simp only [TimeOfDay.text, List.mem_append, List.mem_cons] at hc
  rcases hc with ((hc | rfl | hc) | rfl | hc) | hc
  · exact toNat_lt_of_isDigit (isDigit_of_mem_decimalPadded c hc)
  · decide
  · exact toNat_lt_of_isDigit (isDigit_of_mem_decimalPadded c hc)
  · decide
  · exact toNat_lt_of_isDigit (isDigit_of_mem_decimalPadded c hc)
  · split at hc
    · simp at hc
    · rcases List.mem_cons.1 hc with rfl | hc
      · decide
      · exact toNat_lt_of_isDigit (isDigit_of_mem_decimalPadded c hc)

/-- An offset other than zero is a sign and five places, the last of them a digit. -/
theorem exists_offsetText {offset : Int} (hvalid : ValidOffset offset) (hne : offset ≠ 0) :
    ∃ front last, Timestamp.offsetText offset = front ++ [last] ∧ front.length = 5 ∧
      last.isDigit = true ∧ ∀ c ∈ front, c.toNat < 128 := by
  obtain ⟨hrange, hminutes⟩ := hvalid
  have hminuteDigits : ∀ c ∈ decimalPadded 2 (offset.natAbs % 3600 / 60), c.isDigit = true :=
    isDigit_of_mem_decimalPadded
  have hhourDigits : ∀ c ∈ decimalPadded 2 (offset.natAbs / 3600), c.isDigit = true :=
    isDigit_of_mem_decimalPadded
  obtain ⟨h₁, h₂, hhour⟩ := exists_decimalPadded_two (n := offset.natAbs / 3600) (by omega)
  obtain ⟨m₁, m₂, hminute⟩ := exists_decimalPadded_two (n := offset.natAbs % 3600 / 60) (by omega)
  rw [hhour] at hhourDigits
  rw [hminute] at hminuteDigits
  refine ⟨[if offset < 0 then '-' else '+', h₁, h₂, ':', m₁], m₂, ?_, rfl, ?_, ?_⟩
  · simp [Timestamp.offsetText, hne, hhour, hminute]
  · exact hminuteDigits m₂ (by simp)
  · intro c hc
    simp only [List.mem_cons, List.not_mem_nil, or_false] at hc
    rcases hc with rfl | rfl | rfl | rfl | rfl
    · split <;> decide
    · exact toNat_lt_of_isDigit (hhourDigits _ (by simp))
    · exact toNat_lt_of_isDigit (hhourDigits _ (by simp))
    · decide
    · exact toNat_lt_of_isDigit (hminuteDigits _ (by simp))

theorem examineClock_text (text : String) (date : Date) (t : TimeOfDay) {offset : Int}
    (hvalid : ValidOffset offset) :
    examineClock text date (t.text ++ Timestamp.offsetText offset) =
      .ok ⟨date, t, offset, decide (offset = 0)⟩ := by
  by_cases hzero : offset = 0
  · have hoffset : Timestamp.offsetText offset = ['Z'] := by simp [Timestamp.offsetText, hzero]
    have hlast : (t.text ++ ['Z']).getLast? = some 'Z' := List.getLast?_concat
    unfold examineClock
    rw [hoffset, if_pos hlast, List.dropLast_concat, examineTime_text t, hzero]
    rfl
  · obtain ⟨front, last, hoffset, hlen, hlast, hascii⟩ := exists_offsetText hvalid hzero
    have hoffsetText := examineOffset_text hvalid hzero
    rw [hoffset] at hoffsetText ⊢
    have hz : (t.text ++ (front ++ [last])).getLast? ≠ some 'Z' := by
      rw [← List.append_assoc, List.getLast?_concat]
      rintro heq
      cases heq
      simp at hlast
    have hbytes : byteLength (t.text ++ (front ++ [last])) - 6 = t.text.length := by
      rw [byteLength_of_ascii]
      · simp only [List.length_append, List.length_cons, List.length_nil, hlen]
        omega
      · intro c hc
        simp only [List.mem_append, List.mem_singleton] at hc
        rcases hc with hc | hc | rfl
        · exact isAscii_of_mem_time_text c hc
        · exact hascii c hc
        · exact toNat_lt_of_isDigit hlast
    have hsplit : splitAtByte? (byteLength (t.text ++ (front ++ [last])) - 6)
        (t.text ++ (front ++ [last])) = some (t.text, front ++ [last]) := by
      rw [hbytes]
      exact splitAtByte?_of_ascii isAscii_of_mem_time_text _
    have htime := examineTime_text t
    unfold examineClock
    rw [if_neg hz, hsplit]
    cases hcs : t.text with
    | nil =>
      rw [hcs] at htime
      simp [examineTime] at htime
    | cons c cs =>
      rw [hcs] at htime
      simp only [hoffsetText, htime, hzero, decide_false]
      rfl

/-- A timestamp with a year of four digits is examined as its own parts. -/
theorem examineInstant_text {d : Date} (t : TimeOfDay) {offset : Int} (h : d.year ≤ 9999)
    (hvalid : ValidOffset offset) :
    examineInstant (d.text ++ 'T' :: (t.text ++ Timestamp.offsetText offset)) =
      .ok ⟨d, t, offset, decide (offset = 0)⟩ := by
  have hsplit := splitAtByte?_of_ascii (isAscii_of_mem_date_text (d := d))
    ('T' :: (t.text ++ Timestamp.offsetText offset))
  rw [length_date_text h] at hsplit
  unfold examineInstant
  simp only [hsplit, examineDate_text h]
  exact examineClock_text _ d t hvalid

end Zinc

end TagGrid
