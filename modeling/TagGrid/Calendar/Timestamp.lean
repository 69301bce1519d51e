import TagGrid.Calendar.Date
import TagGrid.Calendar.Zone

/-! # Times of day and timestamps

A timestamp is a local date and time with the offset from universal time at which it
was taken and the timezone it was taken in. The offset need not be the zone's standard
one.
-/

namespace TagGrid

/-! ## Times of day

A time of day to the millisecond, without a date or a zone.
-/

/-- A time of day. -/
structure TimeOfDay where
  hour : Nat
  minute : Nat
  second : Nat
  millisecond : Nat
  valid : hour < 24 ∧ minute < 60 ∧ second < 60 ∧ millisecond < 1000
  deriving Repr, DecidableEq

namespace TimeOfDay

/-- The time with the given fields, checked from the hour down. -/
def ofFields? (hour minute second millisecond : Nat) : Except Violation TimeOfDay :=
  if hh : 23 < hour then .error (.hour hour)
  else if hm : 59 < minute then .error (.minute minute)
  else if hs : 59 < second then .error (.second second)
  else if hms : 999 < millisecond then .error (.millisecond millisecond)
  else .ok ⟨hour, minute, second, millisecond, by omega⟩

def midnight : TimeOfDay := ⟨0, 0, 0, 0, by decide⟩

/-- The milliseconds since midnight. -/
def millisOfDay (t : TimeOfDay) : Nat :=
  ((t.hour * 60 + t.minute) * 60 + t.second) * 1000 + t.millisecond

/-- The order of times within a day. -/
def compare (a b : TimeOfDay) : Ordering := Ord.compare a.millisOfDay b.millisOfDay

/-- The text of a time: `hh:mm:ss`, followed by the milliseconds unless there are none. -/
def text (t : TimeOfDay) : List Char :=
  Text.decimalPadded 2 t.hour ++ ':' :: Text.decimalPadded 2 t.minute ++
    ':' :: Text.decimalPadded 2 t.second ++
    (if t.millisecond = 0 then [] else '.' :: Text.decimalPadded 3 t.millisecond)

end TimeOfDay

/-! ## Timestamps -/

open Calendar

/-- An offset in seconds within eighteen hours and in whole minutes. -/
def ValidOffset (offset : Int) : Prop := offset.natAbs ≤ 64800 ∧ offset % 60 = 0

instance (offset : Int) : Decidable (ValidOffset offset) := by
  unfold ValidOffset; infer_instance

theorem Zone.validOffset (zone : Zone) : ValidOffset zone.offset := by
  have := Zone.minutes_bounded zone.entry zone.listed
  unfold ValidOffset Zone.offset
  omega

/-- A local date and time in a timezone. -/
structure Timestamp where
  date : Date
  time : TimeOfDay
  zone : Zone
  /-- Seconds east of universal time. -/
  offset : Int
  valid : ValidOffset offset
  deriving Repr, DecidableEq

namespace Timestamp

/-- The timestamp with the given parts, if the offset is one that clocks can have. -/
def ofParts? (date : Date) (time : TimeOfDay) (zone : Zone) (offset : Int) :
    Except Violation Timestamp :=
  if h : ValidOffset offset then .ok ⟨date, time, zone, offset, h⟩
  else .error (.offset offset)

/-- The start of a day in a timezone, at its standard offset. -/
def midnight (date : Date) (zone : Zone) : Timestamp :=
  ⟨date, .midnight, zone, zone.offset, zone.validOffset⟩

/-- The milliseconds of a day. -/
def millisPerDay : Int := 86400000

/-- The instant, in milliseconds since the start of 1970 in universal time. -/
def millis (t : Timestamp) : Int :=
  t.date.dayNumber * millisPerDay + t.time.millisOfDay - t.offset * 1000

/-- The timestamp of an instant in a timezone, at its standard offset. An instant
outside the day count is refused, and so is one whose local date is before 1900. -/
def ofMillis? (millis : Int) (zone : Zone) : Except Violation Timestamp :=
  let day := millis / millisPerDay
  if firstDay ≤ day ∧ day ≤ lastDay then do
    let localMillis := millis + zone.offset * 1000
    let (year, month, dayOfMonth) := fieldsOfDay (localMillis / millisPerDay)
    let date ← Date.ofFields? year month dayOfMonth
    let inDay := (localMillis % millisPerDay).toNat
    let time ← TimeOfDay.ofFields? (inDay / 3600000) (inDay / 60000 % 60)
      (inDay / 1000 % 60) (inDay % 1000)
    ofParts? date time zone zone.offset
  else .error (.millis millis)

/-- The order of instants, whatever their timezones. -/
def compare (a b : Timestamp) : Ordering := Ord.compare a.millis b.millis

/-- The text of an offset: `Z` for none, else a sign, hours and minutes. -/
def offsetText (offset : Int) : List Char :=
  if offset = 0 then ['Z']
  else
    (if offset < 0 then '-' else '+') :: Text.decimalPadded 2 (offset.natAbs / 3600) ++
      ':' :: Text.decimalPadded 2 (offset.natAbs % 3600 / 60)

/-- The text of a timestamp: date, time, offset and the short name of the zone. -/
def text (t : Timestamp) : List Char :=
  t.date.text ++ 'T' :: t.time.text ++ offsetText t.offset ++ ' ' :: t.zone.name.toList

end Timestamp

end TagGrid
