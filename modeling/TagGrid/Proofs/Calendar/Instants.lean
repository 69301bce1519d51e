import TagGrid.Calendar.Timestamp
import TagGrid.Proofs.Calendar.DayCount

/-! # Instants and timestamps

An instant is split into a day of the count and the milliseconds of that day, both local to a
timezone. The two parts make the instant again, so at the standard offset of its zone a
timestamp and its instant determine each other.
-/

namespace TagGrid

open Calendar

theorem TimeOfDay.millisOfDay_lt (t : TimeOfDay) : t.millisOfDay < 86400000 := by
  have hvalid := t.valid
  unfold millisOfDay
  omega

/-- The fields of a time are counted off from the milliseconds of the day, and in no other
way. -/
theorem TimeOfDay.ofFields?_eq_ok_iff {inDay : Nat} (h : inDay < 86400000) {t : TimeOfDay} :
    ofFields? (inDay / 3600000) (inDay / 60000 % 60) (inDay / 1000 % 60) (inDay % 1000) = .ok t ↔
      t.millisOfDay = inDay := by
  constructor
  · intro ht
    obtain ⟨hhour, hminute, hsecond, hmillisecond⟩ := fields_of_ofFields? ht
    unfold millisOfDay
    omega
  · rintro rfl
    have hvalid := t.valid
    have hhour : t.millisOfDay / 3600000 = t.hour := by unfold millisOfDay; omega
    have hminute : t.millisOfDay / 60000 % 60 = t.minute := by unfold millisOfDay; omega
    have hsecond : t.millisOfDay / 1000 % 60 = t.second := by unfold millisOfDay; omega
    have hmillisecond : t.millisOfDay % 1000 = t.millisecond := by unfold millisOfDay; omega
    rw [hhour, hminute, hsecond, hmillisecond, ofFields?_fields]

theorem Date.ofFields?_eq_ok_iff {a : Day} {d : Date} :
    ofFields? a.year a.month a.day = .ok d ↔ d.toDay = a := by
  constructor
  · exact toDay_of_ofFields?
  · rintro rfl
    exact ofFields?_fields d

namespace Timestamp

variable {t : Timestamp} {zone : Zone} {millis : Int}

/-- The milliseconds of an instant by the clocks of a zone. -/
def localMillis (millis : Int) (zone : Zone) : Int := millis + zone.offset * 1000

theorem ofParts?_eq_ok_iff {date : Date} {time : TimeOfDay} {offset : Int} :
    ofParts? date time zone offset = .ok t ↔
      ValidOffset offset ∧ t.date = date ∧ t.time = time ∧ t.zone = zone ∧ t.offset = offset := by
  unfold ofParts?
  constructor
  · intro h
    split at h
    · rename_i hvalid
      cases h
      exact ⟨hvalid, rfl, rfl, rfl, rfl⟩
    · cases h
  · rintro ⟨hvalid, rfl, rfl, rfl, rfl⟩
    rw [dif_pos hvalid]

/-- The timestamp of an instant is the one at the standard offset whose day and time are the two
parts of the local milliseconds. -/
theorem ofMillis?_eq_ok_iff : ofMillis? millis zone = .ok t ↔
    (firstDay ≤ millis / millisPerDay ∧ millis / millisPerDay ≤ lastDay) ∧
      t.zone = zone ∧ t.offset = zone.offset ∧
      t.date.toDay.number * millisPerDay + t.time.millisOfDay = localMillis millis zone := by
  generalize hlocal : localMillis millis zone = inZone
  have hunfold : ofMillis? millis zone =
      if firstDay ≤ millis / millisPerDay ∧ millis / millisPerDay ≤ lastDay then do
        let a := Day.ofNumber (inZone / millisPerDay)
        let inDay := (inZone % millisPerDay).toNat
        let date ← Date.ofFields? a.year a.month a.day
        let time ← TimeOfDay.ofFields? (inDay / 3600000) (inDay / 60000 % 60)
          (inDay / 1000 % 60) (inDay % 1000)
        ofParts? date time zone zone.offset
      else .error (.millis millis) := by
    subst hlocal
    rfl
  have hinDay : (inZone % millisPerDay).toNat < 86400000 := by unfold millisPerDay; omega
  rw [hunfold]
  constructor
  · intro h
    split at h
    · rename_i hrange
      obtain ⟨date, hdate, h⟩ := bind_eq_ok h
      obtain ⟨time, htime, h⟩ := bind_eq_ok h
      obtain ⟨-, rfl, rfl, hzone, hoffset⟩ := ofParts?_eq_ok_iff.1 h
      have hnumber := congrArg Day.number (Date.ofFields?_eq_ok_iff.1 hdate)
      have hmillis := (TimeOfDay.ofFields?_eq_ok_iff hinDay).1 htime
      rw [Day.number_ofNumber] at hnumber
      refine ⟨hrange, hzone, hoffset, ?_⟩
      rw [hnumber, hmillis]
      unfold millisPerDay
      omega
    · cases h
  · rintro ⟨hrange, hzone, hoffset, hparts⟩
    have htime := t.time.millisOfDay_lt
    have hnumber : t.date.toDay.number = inZone / millisPerDay := by
      unfold millisPerDay at hparts ⊢
      omega
    have hmillis : t.time.millisOfDay = (inZone % millisPerDay).toNat := by
      unfold millisPerDay at hparts ⊢
      omega
    have hdate := Date.ofFields?_eq_ok_iff.2 (Day.ofNumber_number t.date.toDay).symm
    have hclock := (TimeOfDay.ofFields?_eq_ok_iff hinDay).2 hmillis
    rw [hnumber] at hdate
    rw [if_pos hrange]
    simp only [hdate, hclock, bind, Except.bind]
    exact ofParts?_eq_ok_iff.2 ⟨zone.validOffset, rfl, rfl, hzone, hoffset⟩

theorem millis_eq (hdate : t.date.year ≤ lastYear) : t.millis =
    t.date.toDay.number * millisPerDay + t.time.millisOfDay - t.offset * 1000 := by
  unfold millis
  rw [Date.dayNumber_eq hdate]

/-- The milliseconds of a day of the count fit into a word of 64 bits. -/
theorem exists_word (hfirst : firstDay ≤ millis / millisPerDay)
    (hlast : millis / millisPerDay ≤ lastDay) : ∃ word : Int64, word.toInt = millis := by
  have hfirstDay : firstDay = -96465292 := by decide
  have hlastDay : lastDay = 95026236 := by decide
  unfold millisPerDay at hfirst hlast
  exact ⟨Int64.ofInt millis, Int64.toInt_ofInt_of_le (by omega) (by omega)⟩

/-- From the milliseconds of an instant the timestamp in a timezone has the same instant, the
standard offset of that zone, and a date and a time that the checks let through. Back from a
timestamp at the standard offset of its zone, its milliseconds are a 64-bit word and give the
same timestamp. The local day must have a place in the count, and so must the day of the
instant. -/
theorem instants_and_timestamps_correspond :
    (∀ (millis : Int) (zone : Zone) (t : Timestamp), ofMillis? millis zone = .ok t →
      localMillis millis zone / millisPerDay ≤ lastDay →
        t.millis = millis ∧ t.zone = zone ∧ t.offset = zone.offset ∧
          Date.ofFields? t.date.year t.date.month t.date.day = .ok t.date ∧
          TimeOfDay.ofFields? t.time.hour t.time.minute t.time.second t.time.millisecond =
            .ok t.time) ∧
    ∀ t : Timestamp, t.offset = t.zone.offset → t.date.year ≤ lastYear →
      firstDay ≤ t.millis / millisPerDay → t.millis / millisPerDay ≤ lastDay →
        (∃ word : Int64, word.toInt = t.millis) ∧ ofMillis? t.millis t.zone = .ok t := by
  constructor
  · intro millis zone t h hlast
    obtain ⟨-, hzone, hoffset, hparts⟩ := ofMillis?_eq_ok_iff.1 h
    have hyear : t.date.year ≤ lastYear := by
      have htime := t.time.millisOfDay_lt
      apply t.date.toDay.number_le_lastDay_iff.1
      rw [← hparts] at hlast
      unfold millisPerDay at hlast
      omega
    refine ⟨?_, hzone, hoffset, Date.ofFields?_fields t.date, TimeOfDay.ofFields?_fields t.time⟩
    rw [millis_eq hyear, hparts, hoffset]
    unfold localMillis
    omega
  · intro t hoffset hyear hfirst hlast
    refine ⟨exists_word hfirst hlast, ofMillis?_eq_ok_iff.2 ⟨⟨hfirst, hlast⟩, rfl, hoffset, ?_⟩⟩
    rw [millis_eq hyear, hoffset]
    unfold localMillis
    omega

/-- The last millisecond of 1969 in universal time, by clocks that are three and a half hours
behind. -/
def beforeEpoch : Timestamp where
  date := ⟨1969, 12, 31, by decide⟩
  time := ⟨20, 29, 59, 999, by decide⟩
  zone := ⟨⟨"St_Johns", "America/St_Johns", -210⟩, by decide⟩
  offset := -12600
  valid := by decide

theorem beforeEpoch_corresponds :
    (ofMillis? (-1) beforeEpoch.zone = .ok beforeEpoch ∧
      localMillis (-1) beforeEpoch.zone / millisPerDay ≤ lastDay ∧ beforeEpoch.millis = -1) ∧
    beforeEpoch.offset = beforeEpoch.zone.offset ∧ beforeEpoch.date.year ≤ lastYear ∧
      firstDay ≤ beforeEpoch.millis / millisPerDay ∧ beforeEpoch.millis / millisPerDay ≤ lastDay ∧
      ofMillis? beforeEpoch.millis beforeEpoch.zone = .ok beforeEpoch := by
  have hread : ofMillis? (-1) beforeEpoch.zone = .ok beforeEpoch :=
    ofMillis?_eq_ok_iff.2 ⟨by decide, rfl, rfl, by decide⟩
  have hlocal : localMillis (-1) beforeEpoch.zone / millisPerDay ≤ lastDay := by decide
  obtain ⟨hmillis, -⟩ := instants_and_timestamps_correspond.1 _ _ _ hread hlocal
  obtain ⟨-, hback⟩ := instants_and_timestamps_correspond.2 beforeEpoch rfl (by decide) (by decide)
    (by decide)
  exact ⟨⟨hread, hlocal, hmillis⟩, rfl, by decide, by decide, by decide, hback⟩

end Timestamp

end TagGrid
