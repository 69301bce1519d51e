import TagGrid.Filter.Basic
import TagGrid.Proofs.Grid.Equality
import TagGrid.Proofs.Text.Digits

/-! # Well-formed data

What the parts of a value, a dictionary, a grid and a filter may be, said of the parts
themselves and without the checks of the constructors. The checks let exactly such parts
through, so nothing else is ever held by a value, however deep in a list it stands.
-/

namespace TagGrid

/-! ## Characters -/

def SmallLetter (c : Char) : Prop := 'a' ≤ c ∧ c ≤ 'z'

def CapitalLetter (c : Char) : Prop := 'A' ≤ c ∧ c ≤ 'Z'

def Letter (c : Char) : Prop := CapitalLetter c ∨ SmallLetter c

def LetterOrDigit (c : Char) : Prop := Letter c ∨ ('0' ≤ c ∧ c ≤ '9')

theorem smallLetter_iff {c : Char} : SmallLetter c ↔ c.isLower = true := Text.isLower_iff.symm

theorem capitalLetter_iff {c : Char} : CapitalLetter c ↔ c.isUpper = true := Text.isUpper_iff.symm

theorem letter_iff {c : Char} : Letter c ↔ c.isAlpha = true := Text.isAlpha_iff.symm

theorem letterOrDigit_iff {c : Char} : LetterOrDigit c ↔ c.isAlphanum = true := by
  unfold LetterOrDigit Char.isAlphanum
  rw [Bool.or_eq_true, letter_iff, Text.isDigit_iff]
  exact Iff.rfl

theorem isNameChar_iff {c : Char} : Text.isNameChar c = true ↔ LetterOrDigit c ∨ c = '_' := by
  unfold Text.isNameChar
  rw [Bool.or_eq_true, letterOrDigit_iff, beq_iff_eq]

/-! ## Texts -/

/-- A name: a first character of its kind, then letters, digits and underscores. -/
def NameText (first : Char → Prop) (cs : List Char) : Prop :=
  ∃ c rest, cs = c :: rest ∧ first c ∧ ∀ d ∈ rest, LetterOrDigit d ∨ d = '_'

structure UnitText (cs : List Char) : Prop where
  nonempty : cs ≠ []
  chars : ∀ c ∈ cs, Letter c ∨ c ∈ ['%', '_', '/', '$', '-', '*'] ∨ 127 < c.toNat
  start : cs.head? ≠ some '-' ∧ cs.head? ≠ some '*'

structure RefText (cs : List Char) : Prop where
  nonempty : cs ≠ []
  chars : ∀ c ∈ cs, LetterOrDigit c ∨ c ∈ ['_', '.', '~', '-']

structure MediaText (cs : List Char) : Prop where
  nonempty : cs ≠ []
  chars : ∀ c ∈ cs, c.toNat < 128 ∧ c ≠ ')' ∧ ' ' ≤ c

structure SymbolText (cs : List Char) : Prop where
  start : ∃ c rest, cs = c :: rest ∧ Letter c
  chars : ∀ c ∈ cs, LetterOrDigit c ∨ c ∈ ['_', '-', '.', ':']
  colons : cs.count ':' ≤ 1
  ending : cs.getLast? ≠ some ':'

/-- A segment of a path is a name, and none of the words of filters. -/
structure SegmentText (cs : List Char) : Prop where
  name : NameText Letter cs
  unreserved : cs ∉ ["and".toList, "or".toList, "not".toList]

theorem nameText_cons_iff {first : Char → Prop} {c : Char} {cs : List Char} :
    NameText first (c :: cs) ↔ first c ∧ ∀ d ∈ cs, Text.isNameChar d = true := by
  simp only [isNameChar_iff]
  constructor
  · rintro ⟨d, rest, heq, hfirst, hrest⟩
    cases heq
    exact ⟨hfirst, hrest⟩
  · rintro ⟨hfirst, hrest⟩
    exact ⟨c, cs, rfl, hfirst, hrest⟩

theorem not_nameText_nil {first : Char → Prop} : ¬ NameText first [] := by
  rintro ⟨c, rest, heq, -⟩
  cases heq

theorem isTagName_iff {cs : List Char} : isTagName cs = true ↔ NameText SmallLetter cs := by
  cases cs with
  | nil => exact iff_of_false nofun not_nameText_nil
  | cons c cs =>
    rw [nameText_cons_iff, smallLetter_iff]
    unfold isTagName
    rw [Bool.and_eq_true, List.all_eq_true]

theorem isTypeName_iff {cs : List Char} : isTypeName cs = true ↔ NameText CapitalLetter cs := by
  cases cs with
  | nil => exact iff_of_false nofun not_nameText_nil
  | cons c cs =>
    rw [nameText_cons_iff, capitalLetter_iff]
    unfold isTypeName
    rw [Bool.and_eq_true, List.all_eq_true]

theorem isSegment_iff {cs : List Char} : isSegment cs = true ↔ SegmentText cs := by
  have hname : isSegment cs = true ↔ NameText Letter cs ∧
      cs ∉ ["and".toList, "or".toList, "not".toList] := by
    cases cs with
    | nil => exact iff_of_false nofun fun h => not_nameText_nil h.1
    | cons c cs =>
      rw [nameText_cons_iff, letter_iff]
      unfold isSegment
      rw [Bool.and_eq_true, Bool.and_eq_true, List.all_eq_true, Bool.not_eq_true',
        Bool.eq_false_iff, ne_eq, List.contains_iff_mem]
  rw [hname]
  exact ⟨fun ⟨hname, hword⟩ => ⟨hname, hword⟩, fun h => ⟨h.name, h.unreserved⟩⟩

theorem isUnitChar_iff {c : Char} : isUnitChar c = true ↔
    Letter c ∨ c ∈ ['%', '_', '/', '$', '-', '*'] ∨ 127 < c.toNat := by
  rw [letter_iff]
  simp only [isUnitChar, Bool.or_eq_true, beq_iff_eq, decide_eq_true_eq, List.mem_cons,
    List.not_mem_nil, or_false, or_assoc]

theorem isUnitName_iff {cs : List Char} : isUnitName cs = true ↔ UnitText cs := by
  cases cs with
  | nil => exact iff_of_false nofun fun h => h.nonempty rfl
  | cons c cs =>
    unfold isUnitName
    rw [Bool.and_eq_true, Bool.and_eq_true, bne_iff_ne, bne_iff_ne, List.all_eq_true]
    simp only [isUnitChar_iff]
    constructor
    · rintro ⟨⟨hdash, hstar⟩, hchars⟩
      refine ⟨List.cons_ne_nil _ _, hchars, ?_, ?_⟩
      · rintro heq
        exact hdash (Option.some.inj heq)
      · rintro heq
        exact hstar (Option.some.inj heq)
    · rintro ⟨-, hchars, hdash, hstar⟩
      refine ⟨⟨?_, ?_⟩, hchars⟩
      · rintro rfl
        exact hdash rfl
      · rintro rfl
        exact hstar rfl

theorem isRefId_iff {cs : List Char} : isRefId cs = true ↔ RefText cs := by
  have hchar : ∀ c, isRefChar c = true ↔ LetterOrDigit c ∨ c ∈ ['_', '.', '~', '-'] := by
    intro c
    rw [letterOrDigit_iff]
    simp only [isRefChar, Bool.or_eq_true, beq_iff_eq, List.mem_cons, List.not_mem_nil, or_false,
      or_assoc]
  unfold isRefId
  rw [Bool.and_eq_true, Bool.not_eq_true', List.isEmpty_eq_false_iff, List.all_eq_true]
  simp only [hchar]
  exact ⟨fun ⟨hnonempty, hchars⟩ => ⟨hnonempty, hchars⟩, fun h => ⟨h.nonempty, h.chars⟩⟩

theorem isMediaText_iff {cs : List Char} :
    (!cs.isEmpty && cs.all isMediaChar) = true ↔ MediaText cs := by
  have hchar : ∀ c, isMediaChar c = true ↔ c.toNat < 128 ∧ c ≠ ')' ∧ ' ' ≤ c := by
    intro c
    simp only [isMediaChar, Bool.and_eq_true, decide_eq_true_eq, bne_iff_ne, ne_eq, and_assoc]
  rw [Bool.and_eq_true, Bool.not_eq_true', List.isEmpty_eq_false_iff, List.all_eq_true]
  simp only [hchar]
  exact ⟨fun ⟨hnonempty, hchars⟩ => ⟨hnonempty, hchars⟩, fun h => ⟨h.nonempty, h.chars⟩⟩

theorem isSymbolName_iff {cs : List Char} : isSymbolName cs = true ↔ SymbolText cs := by
  have hchar : ∀ c, isSymbolChar c = true ↔ LetterOrDigit c ∨ c ∈ ['_', '-', '.', ':'] := by
    intro c
    rw [letterOrDigit_iff]
    simp only [isSymbolChar, Bool.or_eq_true, beq_iff_eq, List.mem_cons, List.not_mem_nil,
      or_false, or_assoc]
  unfold isSymbolName
  rw [Bool.and_eq_true, Bool.and_eq_true, Bool.and_eq_true, List.all_eq_true, decide_eq_true_eq,
    bne_iff_ne]
  simp only [hchar]
  constructor
  · rintro ⟨⟨⟨hstart, hchars⟩, hcolons⟩, hending⟩
    refine ⟨?_, hchars, hcolons, hending⟩
    cases cs with
    | nil => cases hstart
    | cons c cs => exact ⟨c, cs, rfl, letter_iff.2 hstart⟩
  · rintro ⟨⟨c, rest, rfl, hletter⟩, hchars, hcolons, hending⟩
    exact ⟨⟨⟨letter_iff.1 hletter, hchars⟩, hcolons⟩, hending⟩

/-! ## Days and times -/

/-- Every fourth year, but of the full centuries only every fourth. -/
def LeapYear (year : Nat) : Prop := 4 ∣ year ∧ (100 ∣ year → 400 ∣ year)

/-- A day that the calendar has, from 1900 on. -/
structure CalendarDay (year month day : Nat) : Prop where
  since : 1900 ≤ year
  inYear : 1 ≤ month ∧ month ≤ 12
  inMonth : 1 ≤ day ∧ day ≤ 31
  inShortMonth : month = 4 ∨ month = 6 ∨ month = 9 ∨ month = 11 → day ≤ 30
  inFebruary : month = 2 → day ≤ 28 ∨ (day = 29 ∧ LeapYear year)

theorem isLeapYear_iff (year : Nat) : Calendar.isLeapYear year = true ↔ LeapYear year := by
  unfold Calendar.isLeapYear LeapYear
  simp only [Bool.or_eq_true, Bool.and_eq_true, beq_iff_eq, bne_iff_ne]
  omega

theorem day_le_daysInMonth_iff {year month day : Nat} (hmonth : 1 ≤ month ∧ month ≤ 12) :
    day ≤ Calendar.daysInMonth year month ↔
      day ≤ 31 ∧ (month = 4 ∨ month = 6 ∨ month = 9 ∨ month = 11 → day ≤ 30) ∧
        (month = 2 → day ≤ 28 ∨ (day = 29 ∧ LeapYear year)) := by
  have hleap := isLeapYear_iff year
  unfold Calendar.daysInMonth
  -- One case for every month of the table, and one for all other numbers.
  split
  all_goals grind

theorem calendarDay_iff {year month day : Nat} :
    (1900 ≤ year ∧ 1 ≤ month ∧ month ≤ 12 ∧ 1 ≤ day ∧ day ≤ Calendar.daysInMonth year month) ↔
      CalendarDay year month day := by
  constructor
  · rintro ⟨hyear, hfirst, hlast, hday, hdays⟩
    obtain ⟨hlong, hshort, hfebruary⟩ := (day_le_daysInMonth_iff ⟨hfirst, hlast⟩).1 hdays
    exact ⟨hyear, ⟨hfirst, hlast⟩, ⟨hday, hlong⟩, hshort, hfebruary⟩
  · rintro ⟨hyear, hmonth, ⟨hday, hlong⟩, hshort, hfebruary⟩
    exact ⟨hyear, hmonth.1, hmonth.2, hday,
      (day_le_daysInMonth_iff hmonth).2 ⟨hlong, hshort, hfebruary⟩⟩

/-- A time of the day, from its first millisecond to its last. -/
structure ClockTime (hour minute second millisecond : Nat) : Prop where
  inDay : hour ≤ 23
  inHour : minute ≤ 59
  inMinute : second ≤ 59
  inSecond : millisecond ≤ 999

/-- Whole minutes, up to eighteen hours in either direction. -/
def ClockOffset (seconds : Int) : Prop :=
  ∃ minutes : Int, seconds = minutes * 60 ∧ -1080 ≤ minutes ∧ minutes ≤ 1080

theorem validOffset_iff {seconds : Int} : ValidOffset seconds ↔ ClockOffset seconds := by
  unfold ValidOffset ClockOffset
  constructor
  · rintro ⟨hbound, hwhole⟩
    exact ⟨seconds / 60, by omega, by omega, by omega⟩
  · rintro ⟨minutes, rfl, hlow, hhigh⟩
    omega

/-! ## Values -/

def Date.WellFormed (d : Date) : Prop := CalendarDay d.year d.month d.day

def TimeOfDay.WellFormed (t : TimeOfDay) : Prop :=
  ClockTime t.hour t.minute t.second t.millisecond

structure Timestamp.WellFormed (t : Timestamp) : Prop where
  date : t.date.WellFormed
  time : t.time.WellFormed
  offset : ClockOffset t.offset

/-- Only a finite number has a unit. -/
structure Number.WellFormed (n : Number) : Prop where
  unit : ∀ unit, n.unit = some unit → UnitText unit.toList
  finite : n.unit ≠ none → n.value ≠ .nan ∧ ∀ negative, n.value ≠ .infinity negative

/-- No further north or south than the poles, and no further east or west than half a turn. -/
structure Coord.WellFormed (c : Coord) : Prop where
  latitude : c.microLat.natAbs ≤ 90000000
  longitude : c.microLng.natAbs ≤ 180000000

mutual

/-- Everything that a value holds is what it may be, and so are the items of a list. -/
def Value.WellFormed : Value → Prop
  | marker | remove | na | bool _ | str _ | uri _ => True
  | number n => n.WellFormed
  | ref r => RefText r.id.toList
  | date d => d.WellFormed
  | time t => t.WellFormed
  | dateTime t => t.WellFormed
  | bin m => MediaText m.mime.toList
  | coord c => c.WellFormed
  | symbol s => SymbolText s.name.toList
  | list items => ItemsWellFormed items
  | typed t => NameText CapitalLetter t.typeName.toList

def Value.ItemsWellFormed : List Value → Prop
  | [] => True
  | v :: rest => v.WellFormed ∧ ItemsWellFormed rest

end

theorem Date.wellFormed (d : Date) : d.WellFormed := calendarDay_iff.1 d.valid

theorem TimeOfDay.wellFormed (t : TimeOfDay) : t.WellFormed := by
  obtain ⟨hhour, hminute, hsecond, hmillisecond⟩ := t.valid
  exact ⟨Nat.le_of_lt_succ hhour, Nat.le_of_lt_succ hminute, Nat.le_of_lt_succ hsecond,
    Nat.le_of_lt_succ hmillisecond⟩

theorem Timestamp.wellFormed (t : Timestamp) : t.WellFormed :=
  ⟨t.date.wellFormed, t.time.wellFormed, validOffset_iff.1 t.valid⟩

theorem Number.wellFormed (n : Number) : n.WellFormed := by
  constructor
  · intro unit hunit
    exact isUnitName_iff.1 (n.valid unit hunit).1
  · intro hunit
    obtain ⟨unit, hunit⟩ := Option.ne_none_iff_exists'.1 hunit
    have hfinite := (n.valid unit hunit).2
    constructor
    · intro hvalue
      rw [hvalue] at hfinite
      cases hfinite
    · intro negative hvalue
      rw [hvalue] at hfinite
      cases hfinite

theorem Coord.wellFormed (c : Coord) : c.WellFormed := by
  have hvalid := c.valid
  exact ⟨by omega, by omega⟩

mutual

theorem Value.wellFormed (v : Value) : v.WellFormed := by
  cases v with
  | marker | remove | na | bool | str | uri => trivial
  | number n => exact n.wellFormed
  | ref r => exact isRefId_iff.1 r.valid
  | date d => exact d.wellFormed
  | time t => exact t.wellFormed
  | dateTime t => exact t.wellFormed
  | bin m => exact isMediaText_iff.1 m.valid
  | coord c => exact c.wellFormed
  | symbol s => exact isSymbolName_iff.1 s.valid
  | list items => exact Value.itemsWellFormed items
  | typed t => exact isTypeName_iff.1 t.valid
termination_by sizeOf v

theorem Value.itemsWellFormed (items : List Value) : Value.ItemsWellFormed items := by
  cases items with
  | nil => trivial
  | cons v items => exact ⟨v.wellFormed, Value.itemsWellFormed items⟩
termination_by sizeOf items

end

/-! ## Dictionaries, grids and filters -/

def TagName.WellFormed (n : TagName) : Prop := NameText SmallLetter n.text.toList

structure Dict.WellFormed (d : Dict) : Prop where
  names : ∀ e ∈ d.entries, e.1.WellFormed
  values : ∀ e ∈ d.entries, e.2.WellFormed
  ascending : (d.entries.map fun e => e.1.text).Pairwise (· < ·)
  distinct : (d.entries.map fun e => e.1.text).Nodup

structure Grid.WellFormed (g : Grid) : Prop where
  tags : g.tags.WellFormed
  columns : g.columns ≠ []
  names : ∀ c ∈ g.columns, c.name.WellFormed
  distinct : (g.columns.map fun c => c.name.text).Nodup
  columnTags : ∀ c ∈ g.columns, c.tags.WellFormed
  rectangular : ∀ cells ∈ g.rows, cells.length = g.columns.length
  cells : ∀ cells ∈ g.rows, ∀ v, some v ∈ cells → v.WellFormed

structure Path.WellFormed (p : Path) : Prop where
  nonempty : p.segments ≠ []
  segments : ∀ s ∈ p.segments, SegmentText s.toList

def Filter.WellFormed : Filter → Prop
  | has path | missing path => path.WellFormed
  | compare _ path value => path.WellFormed ∧ value.WellFormed
  | and left right | or left right => left.WellFormed ∧ right.WellFormed

theorem TagName.wellFormed (n : TagName) : n.WellFormed := isTagName_iff.1 n.valid

theorem Dict.wellFormed (d : Dict) : d.WellFormed where
  names e _ := e.1.wellFormed
  values e _ := e.2.wellFormed
  ascending := List.pairwise_map.2 d.sorted
  distinct := d.nodup_texts

theorem Grid.wellFormed (g : Grid) : g.WellFormed where
  tags := g.tags.wellFormed
  columns := g.nonempty
  names c _ := c.name.wellFormed
  distinct := by
    have hnodup := List.Nodup.map TagName.text_injective g.distinct
    rw [List.map_map] at hnodup
    exact hnodup
  columnTags c _ := c.tags.wellFormed
  rectangular := g.rectangular
  cells _ _ v _ := v.wellFormed

theorem Path.wellFormed (p : Path) : p.WellFormed where
  nonempty := p.nonempty
  segments s hs := isSegment_iff.1 (p.valid s hs)

theorem Filter.wellFormed (f : Filter) : f.WellFormed := by
  induction f with
  | has path => exact path.wellFormed
  | missing path => exact path.wellFormed
  | compare relation path value => exact ⟨path.wellFormed, value.wellFormed⟩
  | and left right ihleft ihright => exact ⟨ihleft, ihright⟩
  | or left right ihleft ihright => exact ⟨ihleft, ihright⟩

/-! ## What the constructors let through -/

theorem exists_ok_iff {α : Type} {p : Prop} [Decidable p] {make : p → α} {v : Violation} :
    (∃ a, (if h : p then .ok (make h) else .error v : Except Violation α) = .ok a) ↔ p := by
  constructor
  · rintro ⟨a, ha⟩
    split at ha
    · assumption
    · cases ha
  · intro h
    exact ⟨make h, dif_pos h⟩

theorem Ref.exists_ofId?_iff {id : String} {dis : Option String} :
    (∃ r, ofId? id dis = .ok r) ↔ RefText id.toList := exists_ok_iff.trans isRefId_iff

theorem MediaType.exists_ofText?_iff {mime : String} :
    (∃ m, ofText? mime = .ok m) ↔ MediaText mime.toList := exists_ok_iff.trans isMediaText_iff

theorem Symbol.exists_ofName?_iff {name : String} :
    (∃ s, ofName? name = .ok s) ↔ SymbolText name.toList := exists_ok_iff.trans isSymbolName_iff

theorem TypedText.exists_ofParts?_iff {typeName text : String} :
    (∃ t, ofParts? typeName text = .ok t) ↔ NameText CapitalLetter typeName.toList :=
  exists_ok_iff.trans isTypeName_iff

theorem TagName.exists_ofText?_iff {text : String} :
    (∃ n, ofText? text = .ok n) ↔ NameText SmallLetter text.toList :=
  exists_ok_iff.trans isTagName_iff

theorem Timestamp.exists_ofParts?_iff {date : Date} {time : TimeOfDay} {zone : Zone}
    {offset : Int} : (∃ t, ofParts? date time zone offset = .ok t) ↔ ClockOffset offset :=
  exists_ok_iff.trans validOffset_iff

theorem Number.exists_withUnit?_iff {value : Double} {unit : String} :
    (∃ n, withUnit? value unit = .ok n) ↔ UnitText unit.toList ∧ value.isFinite = true := by
  rw [← isUnitName_iff]
  unfold withUnit?
  constructor
  · rintro ⟨n, hn⟩
    split at hn
    · rename_i hunit
      exact ⟨hunit, exists_ok_iff.1 ⟨n, hn⟩⟩
    · cases hn
  · rintro ⟨hunit, hvalue⟩
    rw [dif_pos hunit]
    exact exists_ok_iff.2 hvalue

theorem Date.exists_ofFields?_iff {year : Int} {month day : Nat} :
    (∃ d, ofFields? year month day = .ok d) ↔ CalendarDay year.toNat month day := by
  rw [← calendarDay_iff]
  constructor
  · rintro ⟨d, hd⟩
    unfold ofFields? at hd
    split_ifs at hd
    · have hyear : (year.toNat : Int) = year := Int.toNat_of_nonneg (by omega)
      rw [hyear]
      omega
  · intro h
    have hyear : (year.toNat : Int) = year := Int.toNat_of_nonneg (by omega)
    rw [hyear] at h
    unfold ofFields?
    rw [dif_neg (by omega), dif_neg (by omega), dif_neg (by omega)]
    exact ⟨_, rfl⟩

theorem TimeOfDay.exists_ofFields?_iff {hour minute second millisecond : Nat} :
    (∃ t, ofFields? hour minute second millisecond = .ok t) ↔
      ClockTime hour minute second millisecond := by
  constructor
  · rintro ⟨t, ht⟩
    unfold ofFields? at ht
    split_ifs at ht
    · exact ⟨by omega, by omega, by omega, by omega⟩
  · rintro ⟨hhour, hminute, hsecond, hmillisecond⟩
    unfold ofFields?
    rw [dif_neg (by omega), dif_neg (by omega), dif_neg (by omega), dif_neg (by omega)]
    exact ⟨_, rfl⟩

theorem Coord.exists_ofMicro?_iff {microLat microLng : Int} :
    (∃ c, ofMicro? microLat microLng = .ok c) ↔
      microLat.natAbs ≤ 90000000 ∧ microLng.natAbs ≤ 180000000 := by
  constructor
  · rintro ⟨c, hc⟩
    unfold ofMicro? at hc
    split_ifs at hc
    · omega
  · rintro ⟨hlat, hlng⟩
    unfold ofMicro?
    rw [dif_neg (by omega), dif_neg (by omega)]
    exact ⟨_, rfl⟩

theorem Path.exists_ofSegments?_iff {segments : List String} :
    (∃ p, ofSegments? segments = .ok p) ↔
      segments ≠ [] ∧ ∀ s ∈ segments, SegmentText s.toList := by
  constructor
  · rintro ⟨p, hp⟩
    rw [← segments_of_ofSegments? hp]
    exact ⟨p.nonempty, p.wellFormed.segments⟩
  · rintro ⟨hnonempty, hsegments⟩
    have hnone : segments.find? (fun s => !isSegment s.toList) = none := by
      rw [List.find?_eq_none]
      intro s hs
      have hsegment := isSegment_iff.2 (hsegments s hs)
      rw [hsegment]
      exact Bool.false_ne_true
    unfold ofSegments?
    rw [dif_neg hnonempty]
    split
    · rename_i hsome
      rw [hnone] at hsome
      cases hsome
    · exact ⟨_, rfl⟩

end TagGrid
