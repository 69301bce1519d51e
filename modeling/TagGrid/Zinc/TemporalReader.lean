import TagGrid.Calendar.Timestamp
import TagGrid.Text
import TagGrid.Zinc.Outcome

/-! # Dates and times in text

A literal of a date, a time or a timestamp is cut out of the text before it is looked
at, so these functions examine a whole text and name what is wrong with it. Dates and
times are laid out in fixed places.
-/

namespace TagGrid.Zinc

open Outcome

/-- A number written with nothing but digits, at least one. -/
def digits? (cs : List Char) : Option Nat :=
  if cs ≠ [] ∧ cs.all Char.isDigit then some (Nat.ofDigitChars 10 cs 0) else none

/-- A part of a text, given by place and length. -/
def part (cs : List Char) (start length : Nat) : List Char := (cs.drop start).take length

/-- Examines a date, `YYYY-MM-DD`. -/
def examineDate (cs : List Char) : Except Fault Date :=
  let text := String.ofList cs
  if cs.length = 10 ∧ cs[4]? = some '-' ∧ cs[7]? = some '-' then
    match digits? (part cs 0 4), digits? (part cs 5 2), digits? (part cs 8 2) with
    | some year, some month, some day =>
      (Date.ofFields? year month day).mapError (.dateFields text)
    | _, _, _ => .error (.dateShape text)
  else .error (.dateShape text)

/-- Examines what follows the seconds: nothing, or a point and one to three digits. The
length of the fraction is limited in bytes. -/
def examineFraction (text : String) : List Char → Except Fault Nat
  | [] => .ok 0
  | '.' :: fraction =>
    if 1 ≤ Text.byteLength fraction ∧ Text.byteLength fraction ≤ 3 then
      match digits? fraction with
      | some n => .ok (n * Nat.pow 10 (3 - fraction.length))
      | none => .error (.fractionDigits (String.ofList fraction))
    else .error (.timeFraction text)
  | _ => .error (.timeFraction text)

/-- Examines a time, `hh:mm:ss` with an optional fraction of a second. -/
def examineTime (cs : List Char) : Except Fault TimeOfDay :=
  let text := String.ofList cs
  if cs[2]? = some ':' ∧ cs[5]? = some ':' then
    match digits? (part cs 0 2), digits? (part cs 3 2), part cs 6 2, digits? (part cs 6 2) with
    | some hour, some minute, [_, _], some second =>
      match examineFraction text (cs.drop 8) with
      | .ok millisecond =>
        (TimeOfDay.ofFields? hour minute second millisecond).mapError (.timeFields text)
      | .error fault => .error fault
    | _, _, _, _ => .error (.timeShape text)
  else .error (.timeShape text)

/-- Examines an offset, a sign and `hh:mm`, as seconds. -/
def examineOffset (cs : List Char) : Except Fault Int :=
  let fault := Fault.offsetShape (String.ofList cs)
  match cs with
  | sign :: clock =>
    if sign = '+' ∨ sign = '-' then
      match digits? (part clock 0 2), clock[2]?, digits? (part clock 3 2) with
      | some hours, some ':', some minutes =>
        let seconds : Int := (hours * 3600 + minutes * 60 : Nat)
        .ok (if sign = '-' then -seconds else seconds)
      | _, _, _ => .error fault
    else .error fault
  | [] => .error fault

/-- A date and time with an offset, of which the zone is not known yet. -/
structure LocalInstant where
  date : Date
  time : TimeOfDay
  /-- Seconds east of universal time. -/
  offset : Int
  /-- Whether the offset is written `Z`. -/
  zulu : Bool
  deriving Repr, DecidableEq

/-- Examines a time with the offset after it: `Z`, or the last six bytes. -/
def examineClock (text : String) (date : Date) (cs : List Char) : Except Fault LocalInstant :=
  if cs.getLast? = some 'Z' then do
    return ⟨date, ← examineTime cs.dropLast, 0, true⟩
  else
    match Text.splitAtByte? (Text.byteLength cs - 6) cs with
    | some (c :: time, offset) => do
      let offset ← examineOffset offset
      return ⟨date, ← examineTime (c :: time), offset, false⟩
    | _ => .error (.offsetMissing text)

/-- Examines a timestamp up to its offset: a date in the first ten bytes, `T`, a time and
an offset. -/
def examineInstant (cs : List Char) : Except Fault LocalInstant :=
  let text := String.ofList cs
  match Text.splitAtByte? 10 cs with
  | some (front, back) => do
    let date ← examineDate front
    match back with
    | 'T' :: clock => examineClock text date clock
    | _ => .error (.timestampShape text)
  | none => .error (.dateShape text)

/-- Reads the zone of a timestamp whose text up to the offset is `text`: a name after one
space. After `Z` the zone may be left out and is universal time then. -/
def readZone (text : List Char) (zulu : Bool) (cs : List Char) : Outcome Zone :=
  let without : Outcome Zone :=
    if zulu then ok .utc cs else failHere (.zoneMissing (String.ofList text)) cs
  match cs with
  | ' ' :: c :: rest =>
    if c.isUpper then
      let name := (c :: rest).takeWhile Zone.isNameChar
      let rest := (c :: rest).dropWhile Zone.isNameChar
      check rest rest (Zone.ofName? (String.ofList name))
    else without
  | _ => without

/-- Completes a timestamp whose text up to the offset is `text` with its zone. -/
def readTimestamp (text cs : List Char) : Outcome Timestamp :=
  (examine cs (examineInstant text)).bind fun parts cs =>
    (readZone text parts.zulu cs).bind fun zone rest =>
      check rest rest (Timestamp.ofParts? parts.date parts.time zone parts.offset)

end TagGrid.Zinc
