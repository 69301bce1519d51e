import TagGrid.Violation

/-! # Timezones

The table of timezones: a short name, the name in the timezone database, and the
standard offset from universal time. Zones of the `GMT+h` family have the sign that
the database gives them, west of Greenwich positive. Daylight saving is not kept.
-/

namespace TagGrid

/-- One line of the table. -/
structure ZoneEntry where
  name : String
  iana : String
  /-- The standard offset in minutes east of Greenwich. -/
  minutes : Int
  deriving Repr, DecidableEq

def zoneTable : List ZoneEntry :=
  [⟨"UTC", "Etc/UTC", 0⟩,
   ⟨"GMT", "Etc/GMT", 0⟩,
   ⟨"Rel", "Etc/Rel", 0⟩,
   ⟨"GMT+1", "Etc/GMT+1", -60⟩,
   ⟨"GMT+2", "Etc/GMT+2", -120⟩,
   ⟨"GMT+3", "Etc/GMT+3", -180⟩,
   ⟨"GMT+4", "Etc/GMT+4", -240⟩,
   ⟨"GMT+5", "Etc/GMT+5", -300⟩,
   ⟨"GMT+6", "Etc/GMT+6", -360⟩,
   ⟨"GMT+7", "Etc/GMT+7", -420⟩,
   ⟨"GMT+8", "Etc/GMT+8", -480⟩,
   ⟨"GMT+9", "Etc/GMT+9", -540⟩,
   ⟨"GMT+10", "Etc/GMT+10", -600⟩,
   ⟨"GMT+11", "Etc/GMT+11", -660⟩,
   ⟨"GMT+12", "Etc/GMT+12", -720⟩,
   ⟨"GMT-1", "Etc/GMT-1", 60⟩,
   ⟨"GMT-2", "Etc/GMT-2", 120⟩,
   ⟨"GMT-3", "Etc/GMT-3", 180⟩,
   ⟨"GMT-4", "Etc/GMT-4", 240⟩,
   ⟨"GMT-5", "Etc/GMT-5", 300⟩,
   ⟨"GMT-6", "Etc/GMT-6", 360⟩,
   ⟨"GMT-7", "Etc/GMT-7", 420⟩,
   ⟨"GMT-8", "Etc/GMT-8", 480⟩,
   ⟨"GMT-9", "Etc/GMT-9", 540⟩,
   ⟨"GMT-10", "Etc/GMT-10", 600⟩,
   ⟨"GMT-11", "Etc/GMT-11", 660⟩,
   ⟨"GMT-12", "Etc/GMT-12", 720⟩,
   ⟨"GMT-13", "Etc/GMT-13", 780⟩,
   ⟨"GMT-14", "Etc/GMT-14", 840⟩,
   ⟨"New_York", "America/New_York", -300⟩,
   ⟨"Detroit", "America/Detroit", -300⟩,
   ⟨"Toronto", "America/Toronto", -300⟩,
   ⟨"Montreal", "America/Montreal", -300⟩,
   ⟨"Chicago", "America/Chicago", -360⟩,
   ⟨"Winnipeg", "America/Winnipeg", -360⟩,
   ⟨"Mexico_City", "America/Mexico_City", -360⟩,
   ⟨"Denver", "America/Denver", -420⟩,
   ⟨"Phoenix", "America/Phoenix", -420⟩,
   ⟨"Edmonton", "America/Edmonton", -420⟩,
   ⟨"Los_Angeles", "America/Los_Angeles", -480⟩,
   ⟨"Vancouver", "America/Vancouver", -480⟩,
   ⟨"Anchorage", "America/Anchorage", -540⟩,
   ⟨"Honolulu", "Pacific/Honolulu", -600⟩,
   ⟨"Halifax", "America/Halifax", -240⟩,
   ⟨"St_Johns", "America/St_Johns", -210⟩,
   ⟨"Bogota", "America/Bogota", -300⟩,
   ⟨"Lima", "America/Lima", -300⟩,
   ⟨"Caracas", "America/Caracas", -240⟩,
   ⟨"Santiago", "America/Santiago", -240⟩,
   ⟨"Sao_Paulo", "America/Sao_Paulo", -180⟩,
   ⟨"Buenos_Aires", "America/Argentina/Buenos_Aires", -180⟩,
   ⟨"London", "Europe/London", 0⟩,
   ⟨"Dublin", "Europe/Dublin", 0⟩,
   ⟨"Lisbon", "Europe/Lisbon", 0⟩,
   ⟨"Paris", "Europe/Paris", 60⟩,
   ⟨"Berlin", "Europe/Berlin", 60⟩,
   ⟨"Amsterdam", "Europe/Amsterdam", 60⟩,
   ⟨"Brussels", "Europe/Brussels", 60⟩,
   ⟨"Madrid", "Europe/Madrid", 60⟩,
   ⟨"Rome", "Europe/Rome", 60⟩,
   ⟨"Zurich", "Europe/Zurich", 60⟩,
   ⟨"Vienna", "Europe/Vienna", 60⟩,
   ⟨"Stockholm", "Europe/Stockholm", 60⟩,
   ⟨"Oslo", "Europe/Oslo", 60⟩,
   ⟨"Copenhagen", "Europe/Copenhagen", 60⟩,
   ⟨"Warsaw", "Europe/Warsaw", 60⟩,
   ⟨"Prague", "Europe/Prague", 60⟩,
   ⟨"Athens", "Europe/Athens", 120⟩,
   ⟨"Helsinki", "Europe/Helsinki", 120⟩,
   ⟨"Kiev", "Europe/Kiev", 120⟩,
   ⟨"Istanbul", "Europe/Istanbul", 180⟩,
   ⟨"Moscow", "Europe/Moscow", 180⟩,
   ⟨"Cairo", "Africa/Cairo", 120⟩,
   ⟨"Johannesburg", "Africa/Johannesburg", 120⟩,
   ⟨"Lagos", "Africa/Lagos", 60⟩,
   ⟨"Nairobi", "Africa/Nairobi", 180⟩,
   ⟨"Dubai", "Asia/Dubai", 240⟩,
   ⟨"Karachi", "Asia/Karachi", 300⟩,
   ⟨"Kolkata", "Asia/Kolkata", 330⟩,
   ⟨"Calcutta", "Asia/Calcutta", 330⟩,
   ⟨"Kathmandu", "Asia/Kathmandu", 345⟩,
   ⟨"Dhaka", "Asia/Dhaka", 360⟩,
   ⟨"Bangkok", "Asia/Bangkok", 420⟩,
   ⟨"Jakarta", "Asia/Jakarta", 420⟩,
   ⟨"Singapore", "Asia/Singapore", 480⟩,
   ⟨"Hong_Kong", "Asia/Hong_Kong", 480⟩,
   ⟨"Shanghai", "Asia/Shanghai", 480⟩,
   ⟨"Taipei", "Asia/Taipei", 480⟩,
   ⟨"Manila", "Asia/Manila", 480⟩,
   ⟨"Perth", "Australia/Perth", 480⟩,
   ⟨"Seoul", "Asia/Seoul", 540⟩,
   ⟨"Tokyo", "Asia/Tokyo", 540⟩,
   ⟨"Adelaide", "Australia/Adelaide", 570⟩,
   ⟨"Darwin", "Australia/Darwin", 570⟩,
   ⟨"Brisbane", "Australia/Brisbane", 600⟩,
   ⟨"Sydney", "Australia/Sydney", 600⟩,
   ⟨"Melbourne", "Australia/Melbourne", 600⟩,
   ⟨"Hobart", "Australia/Hobart", 600⟩,
   ⟨"Auckland", "Pacific/Auckland", 720⟩]

/-- A timezone of the table. -/
structure Zone where
  entry : ZoneEntry
  listed : entry ∈ zoneTable
  deriving Repr, DecidableEq

namespace Zone

/-- The entry of a list that answers to a name, short or long; the first one counts. -/
def findIn (name : String) :
    (entries : List ZoneEntry) → (∀ e ∈ entries, e ∈ zoneTable) → Option Zone
  | [], _ => none
  | e :: rest, listed =>
    if e.name = name ∨ e.iana = name then some ⟨e, listed e List.mem_cons_self⟩
    else findIn name rest fun x hx => listed x (List.mem_cons_of_mem e hx)

/-- The timezone with a short name or a name of the timezone database. -/
def find? (name : String) : Option Zone := findIn name zoneTable fun _ h => h

/-- The timezone with a name, or the reason why there is none. -/
def ofName? (name : String) : Except Violation Zone :=
  match find? name with
  | some zone => .ok zone
  | none => .error (.zone name)

def utc : Zone := ⟨⟨"UTC", "Etc/UTC", 0⟩, List.mem_cons_self⟩

def name (z : Zone) : String := z.entry.name

def iana (z : Zone) : String := z.entry.iana

/-- The standard offset in seconds east of Greenwich. -/
def offset (z : Zone) : Int := z.entry.minutes * 60

/-- Whether the zone is universal time itself, not merely of the same offset. -/
def isUtc (z : Zone) : Bool := z.name == "UTC"

def isNameChar (c : Char) : Bool := c.isAlphanum || c == '_' || c == '-' || c == '+'

/-- No zone is more than eighteen hours from universal time. -/
theorem minutes_bounded : ∀ e ∈ zoneTable, e.minutes.natAbs ≤ 1080 := by decide

end Zone

end TagGrid
