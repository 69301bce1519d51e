import Mathlib.Tactic.Tauto
import TagGrid.Proofs.Calendar.Texts
import TagGrid.Proofs.Double.ReadBack
import TagGrid.Proofs.Zinc.Follow

/-! # Reading literals that start with a digit back

Numbers, dates, times and timestamps are taken by one loop, which ends at the first
character that fits none of them. The loop is followed here run by run: digits and marks
before a unit go into the body of the token, everything from the first letter on goes
into its unit, and what can stand after a value ends it.
-/

namespace TagGrid.Zinc

open Text Outcome

namespace DigitToken

variable {t u : DigitToken} {c : Char} {cs ds rest : List Char}

/-- Adds characters to the part that is being taken, and so many dashes and colons to the
counts. -/
def advance (t : DigitToken) (cs : List Char) (dashes colons : Nat) : DigitToken :=
  if t.unit = [] then
    { t with body := t.body ++ cs, dashes := t.dashes + dashes, colons := t.colons + colons }
  else { t with unit := t.unit ++ cs, dashes := t.dashes + dashes, colons := t.colons + colons }

theorem advance_nil (t : DigitToken) : t.advance [] 0 0 = t := by
  cases t with
  | mk body unit dashes colons exponent => by_cases hunit : unit = [] <;> simp [advance, hunit]

theorem advance_advance (t : DigitToken) (as bs : List Char) (d d' c c' : Nat) :
    (t.advance as d c).advance bs d' c' = t.advance (as ++ bs) (d + d') (c + c') := by
  by_cases hunit : t.unit = []
  · simp [advance, hunit, Nat.add_assoc]
  · simp [advance, hunit, Nat.add_assoc]

@[simp] theorem unit_advance_eq_nil (t : DigitToken) (cs : List Char) (d c : Nat) :
    (t.advance cs d c).unit = [] ↔ t.unit = [] := by
  by_cases hunit : t.unit = [] <;> simp [advance, hunit]

@[simp] theorem exponent_advance (t : DigitToken) (cs : List Char) (d c : Nat) :
    (t.advance cs d c).exponent = t.exponent := by
  by_cases hunit : t.unit = [] <;> simp [advance, hunit]

@[simp] theorem colons_advance (t : DigitToken) (cs : List Char) (d c : Nat) :
    (t.advance cs d c).colons = t.colons + c := by
  by_cases hunit : t.unit = [] <;> simp [advance, hunit]

@[simp] theorem dashes_advance (t : DigitToken) (cs : List Char) (d c : Nat) :
    (t.advance cs d c).dashes = t.dashes + d := by
  by_cases hunit : t.unit = [] <;> simp [advance, hunit]

@[simp] theorem text_advance (t : DigitToken) (cs : List Char) (d c : Nat) :
    (t.advance cs d c).text = t.text ++ cs := by
  by_cases hunit : t.unit = [] <;> simp [advance, text, hunit]

theorem push_eq_advance (t : DigitToken) (c : Char) : t.push c = t.advance [c] 0 0 := rfl

theorem pushUnit_eq_advance (hunit : t.unit ≠ []) (c : Char) :
    t.pushUnit c = t.advance [c] 0 0 := by
  simp [pushUnit, advance, hunit]

theorem scan_cons (h : t.step? c rest.head? = some u) : t.scan (c :: rest) = u.scan rest := by
  simp only [scan, h]

/-- Nothing that can stand after a value belongs to a token. -/
theorem step?_delimiter (hc : c ∈ delimiters) (next : Option Char) : t.step? c next = none := by
  simp only [delimiters, List.mem_cons, List.not_mem_nil, or_false] at hc
  rcases hc with rfl | rfl | rfl | rfl | rfl | rfl | rfl | rfl <;> simp [step?]

theorem scan_follows (h : Follows rest) : t.scan rest = (t, rest) := by
  cases rest with
  | nil => rfl
  | cons c rest => simp only [scan, step?_delimiter h.1]

/-! ## Runs of a token -/

theorem scan_digits (hds : ∀ c ∈ ds, c.isDigit = true) (rest : List Char) :
    t.scan (ds ++ rest) = (t.advance ds 0 0).scan rest := by
  induction ds generalizing t with
  | nil => rw [advance_nil, List.nil_append]
  | cons c ds ih =>
    have hc := hds c List.mem_cons_self
    have hstep : t.step? c (ds ++ rest).head? = some (t.advance [c] 0 0) := by
      simp only [step?, hc, if_true, push_eq_advance]
    have hds' : ∀ d ∈ ds, d.isDigit = true := fun d hd => hds d (List.mem_cons_of_mem _ hd)
    rw [List.cons_append, scan_cons hstep, ih hds', advance_advance]
    rfl

theorem scan_dash (hunit : t.unit = []) (hexp : t.exponent = false) (rest : List Char) :
    t.scan ('-' :: rest) = (t.advance ['-'] 1 0).scan rest :=
  scan_cons (by simp [step?, push, advance, hunit, hexp])

theorem scan_colon (h : nextIsDigit rest.head? = true) :
    t.scan (':' :: rest) = (t.advance [':'] 0 1).scan rest := by
  apply scan_cons
  by_cases hunit : t.unit = []
  · simp [step?, push, advance, hunit, h]
  · simp [step?, push, advance, hunit, h]

theorem scan_point (h : nextIsDigit rest.head? = true) :
    t.scan ('.' :: rest) = (t.advance ['.'] 0 0).scan rest :=
  scan_cons (by simp [step?, push_eq_advance, h])

/-- After a colon and a letter a sign belongs to the token and counts for nothing. -/
theorem scan_sign (hunit : t.unit ≠ []) (hcolons : 1 ≤ t.colons) (hc : c = '+' ∨ c = '-')
    (rest : List Char) : t.scan (c :: rest) = (t.advance [c] 0 0).scan rest := by
  rcases hc with rfl | rfl
  · exact scan_cons (by simp [step?, push_eq_advance, hcolons])
  · exact scan_cons (by simp [step?, push_eq_advance, hunit])

/-- A unit holds no digits, and none of the marks of dates and times but the dash. -/
theorem isUnitChar_spec (h : isUnitChar c = true) :
    c.isDigit = false ∧ c ≠ ':' ∧ c ≠ '+' ∧ c ≠ '.' ∧
      (c = '-' ∨ c = '*' ∨ c = '_' ∨
        (c.isAlpha = true ∨ c = '%' ∨ c = '$' ∨ c = '/' ∨ 127 < c.toNat)) := by
  have hdigit : c.isDigit = false := by
    rw [Bool.eq_false_iff, ne_eq, isDigit_iff]
    simp only [isUnitChar, Bool.or_eq_true, isAlpha_iff, beq_iff_eq, decide_eq_true_eq] at h
    rcases h with ((((((h | rfl) | rfl) | rfl) | rfl) | rfl) | rfl) | h
    all_goals first | omega | decide
  refine ⟨hdigit, ?_, ?_, ?_, ?_⟩
  · rintro rfl
    simp [isUnitChar] at h
  · rintro rfl
    simp [isUnitChar] at h
  · rintro rfl
    simp [isUnitChar] at h
  · simp only [isUnitChar, Bool.or_eq_true, beq_iff_eq, decide_eq_true_eq] at h
    tauto

/-- Inside a unit every character of units goes on with it. -/
theorem step?_unit (hunit : t.unit ≠ []) (hc : isUnitChar c = true) (next : Option Char) :
    t.step? c next = some (t.advance [c] 0 0) := by
  obtain ⟨hdigit, hcolon, hplus, hpoint, hkind⟩ := isUnitChar_spec hc
  rcases hkind with rfl | rfl | rfl | h
  · simp [step?, push_eq_advance, hunit]
  · simp [step?, push_eq_advance, hunit]
  · simp [step?, pushUnit_eq_advance, hunit]
  · by_cases hdash : c = '-'
    · subst hdash
      simp [step?, push_eq_advance, hunit]
    · by_cases hstar : c = '*'
      · subst hstar
        simp [step?, push_eq_advance, hunit]
      · simp [step?, pushUnit_eq_advance, hunit, hdigit, hcolon, hplus, hpoint, hdash, hstar, h]

theorem scan_unit (hunit : t.unit ≠ []) (hcs : ∀ c ∈ cs, isUnitChar c = true) (rest : List Char) :
    t.scan (cs ++ rest) = (t.advance cs 0 0).scan rest := by
  induction cs generalizing t with
  | nil => rw [advance_nil, List.nil_append]
  | cons c cs ih =>
    have hstep := step?_unit hunit (hcs c List.mem_cons_self) (cs ++ rest).head?
    have hunit' : (t.advance [c] 0 0).unit ≠ [] := by simp [hunit]
    have hcs' : ∀ d ∈ cs, isUnitChar d = true := fun d hd => hcs d (List.mem_cons_of_mem _ hd)
    rw [List.cons_append, scan_cons hstep, ih hunit' hcs', advance_advance]
    rfl

/-- The first character of a unit, unless it and the next one look like an exponent. -/
theorem scan_unit_start (hunit : t.unit = []) (hc : isUnitChar c = true) (hdash : c ≠ '-')
    (hstar : c ≠ '*')
    (hnext : nextIsDigit rest.head? = false)
    (hplain : c = 'e' ∨ c = 'E' → rest.head? ≠ some '+' ∧ rest.head? ≠ some '-') :
    t.scan (c :: rest) = (t.pushUnit c).scan rest := by
  obtain ⟨hdigit, hcolon, hplus, hpoint, hkind⟩ := isUnitChar_spec hc
  apply scan_cons
  rcases hkind with h | h | rfl | h
  · exact absurd h hdash
  · exact absurd h hstar
  · simp [step?, hnext]
  · by_cases he : c = 'e' ∨ c = 'E'
    · obtain ⟨hp, hm⟩ := hplain he
      simp [step?, hdigit, hcolon, hplus, hpoint, hdash, hunit, hnext, hp, hm, h]
    · simp [step?, hdigit, hcolon, hplus, hpoint, hdash, hunit, he, h]

/-! ## Texts of dates, times and offsets -/

theorem nextIsDigit_append (hne : ds ≠ []) (hds : ∀ c ∈ ds, c.isDigit = true) (rest : List Char) :
    nextIsDigit (ds ++ rest).head? = true := by
  cases ds with
  | nil => exact absurd rfl hne
  | cons c ds => exact hds c List.mem_cons_self

theorem nextIsDigit_decimalPadded (width n : Nat) (rest : List Char) :
    nextIsDigit (decimalPadded width n ++ rest).head? = true :=
  nextIsDigit_append (decimalPadded_ne_nil width n) isDigit_of_mem_decimalPadded rest

theorem nextIsDigit_digits {width n : Nat} (h : Digits (width + 1) n ds) (rest : List Char) :
    nextIsDigit (ds ++ rest).head? = true := by
  refine nextIsDigit_append ?_ h.isDigit rest
  rintro rfl
  cases h.length

/-- Two dashes between digits are taken with them. -/
theorem scan_dashed {y m d : List Char} (hunit : t.unit = []) (hexp : t.exponent = false)
    (hy : ∀ c ∈ y, c.isDigit = true) (hm : ∀ c ∈ m, c.isDigit = true)
    (hd : ∀ c ∈ d, c.isDigit = true) (rest : List Char) :
    t.scan (y ++ '-' :: (m ++ '-' :: d) ++ rest) =
      (t.advance (y ++ '-' :: (m ++ '-' :: d)) 2 0).scan rest := by
  simp only [List.append_assoc, List.cons_append]
  rw [scan_digits hy, scan_dash, scan_digits hm, scan_dash, scan_digits hd]
  · simp only [advance_advance, List.append_assoc, List.cons_append, List.nil_append]
  all_goals simp [hunit, hexp]

theorem scan_date (hunit : t.unit = []) (hexp : t.exponent = false) (d : Date)
    (rest : List Char) : t.scan (d.text ++ rest) = (t.advance d.text 2 0).scan rest := by
  have hdashed := scan_dashed hunit hexp (y := decimalPadded 4 d.year)
    (m := decimalPadded 2 d.month) (d := decimalPadded 2 d.day) isDigit_of_mem_decimalPadded
    isDigit_of_mem_decimalPadded isDigit_of_mem_decimalPadded rest
  have htext : d.text = decimalPadded 4 d.year ++
      '-' :: (decimalPadded 2 d.month ++ '-' :: decimalPadded 2 d.day) := by simp [Date.text]
  rw [htext, hdashed]

theorem scan_fraction {millisecond : Nat} (h : FractionText millisecond cs) (rest : List Char) :
    t.scan (cs ++ rest) = (t.advance cs 0 0).scan rest := by
  cases h with
  | none => rw [List.nil_append, advance_nil]
  | @point places n f hpos _ hdigits =>
    obtain ⟨places, rfl⟩ := Nat.exists_eq_succ_of_ne_zero (Nat.ne_of_gt hpos)
    rw [List.cons_append, scan_point (nextIsDigit_digits hdigits rest),
      scan_digits hdigits.isDigit, advance_advance]
    rfl

theorem scan_clock {hour minute second millisecond : Nat}
    (h : ClockText hour minute second millisecond cs) (rest : List Char) :
    t.scan (cs ++ rest) = (t.advance cs 0 2).scan rest := by
  obtain ⟨h, m, s, f, hhour, hminute, hsecond, hfraction, rfl⟩ := h
  simp only [List.append_assoc, List.cons_append]
  rw [scan_digits hhour.isDigit, scan_colon (nextIsDigit_digits hminute _),
    scan_digits hminute.isDigit, scan_colon (nextIsDigit_digits hsecond _),
    scan_digits hsecond.isDigit, scan_fraction hfraction]
  simp only [advance_advance, List.append_assoc, List.cons_append, List.nil_append]

theorem scan_time (tod : TimeOfDay) (rest : List Char) :
    t.scan (tod.text ++ rest) = (t.advance tod.text 0 2).scan rest :=
  scan_clock (clockText_text tod) rest

theorem scan_offset (hunit : t.unit ≠ []) (hcolons : 1 ≤ t.colons) (offset : Int)
    (rest : List Char) :
    t.scan (Timestamp.offsetText offset ++ rest) =
      (t.advance (Timestamp.offsetText offset) 0 (if offset = 0 then 0 else 1)).scan rest := by
  unfold Timestamp.offsetText
  split
  · exact scan_cons (step?_unit hunit (by decide) _)
  · have hsign : (if offset < 0 then '-' else '+') = '+' ∨
        (if offset < 0 then '-' else '+') = '-' := by
      split
      · exact .inr rfl
      · exact .inl rfl
    simp only [List.append_assoc, List.cons_append]
    rw [scan_sign hunit hcolons hsign, scan_digits isDigit_of_mem_decimalPadded,
      scan_colon (nextIsDigit_decimalPadded ..), scan_digits isDigit_of_mem_decimalPadded]
    simp only [advance_advance, List.append_assoc, List.cons_append, List.nil_append]

/-- The token to which nothing was added yet. -/
def initial : DigitToken := ⟨[], [], 0, 0, false⟩

end DigitToken

open DigitToken

variable {c : Char} {cs rest : List Char}

/-- A literal that starts with a digit is a token, unless it starts with `0x`. -/
theorem readDigitLiteral_cons (hc : c.isDigit = true) (hx : c = '0' → cs.head? ≠ some 'x') :
    readDigitLiteral (c :: cs) =
      readToken (initial.scan (c :: cs)).1 (initial.scan (c :: cs)).2 := by
  have hscan : initial.scan (c :: cs) = (start c).scan cs := scan_cons (by simp [step?, hc]; rfl)
  rw [hscan]
  unfold readDigitLiteral
  split
  · rename_i rest heq
    obtain ⟨rfl, rfl⟩ := List.cons.inj heq
    exact absurd rfl (hx rfl)
  · rename_i heq
    obtain ⟨rfl, rfl⟩ := List.cons.inj heq
    rfl
  · rename_i heq
    cases heq

/-- A number padded to two places or more does not look like the start of `0x`. -/
theorem readDigitLiteral_decimalPadded (width n : Nat) (cs : List Char) :
    readDigitLiteral (decimalPadded (width + 2) n ++ cs) =
      readToken (initial.scan (decimalPadded (width + 2) n ++ cs)).1
        (initial.scan (decimalPadded (width + 2) n ++ cs)).2 := by
  have hdigits : ∀ c ∈ decimalPadded (width + 2) n, c.isDigit = true := isDigit_of_mem_decimalPadded
  have hlen : width + 2 ≤ (decimalPadded (width + 2) n).length := by
    unfold decimalPadded padZeros
    rw [List.length_append, List.length_replicate]
    omega
  generalize decimalPadded (width + 2) n = ds at *
  match ds with
  | [] => simp at hlen
  | [_] => simp at hlen
  | a :: b :: ds =>
    have hb : b.isDigit = true := hdigits b (by simp)
    apply readDigitLiteral_cons (hdigits a (by simp))
    intro _ hx
    obtain rfl : b = 'x' := Option.some.inj hx
    exact absurd hb (by decide)

/-! ## What the counts of a token make of it -/

theorem readToken_date {t : DigitToken} (hdashes : t.dashes = 2) (hcolons : t.colons = 0)
    (cs : List Char) : readToken t cs = examine cs ((examineDate t.text).map Value.date) :=
  if_pos ⟨hdashes, hcolons⟩

theorem readToken_time {t : DigitToken} (hdashes : t.dashes = 0) (hcolons : t.colons = 2)
    (cs : List Char) : readToken t cs = examine cs ((examineTime t.text).map Value.time) := by
  simp [readToken, hdashes, hcolons]

theorem readToken_timestamp {t : DigitToken} (hdashes : t.dashes = 2) (hcolons : 2 ≤ t.colons)
    (cs : List Char) : readToken t cs = (readTimestamp t.text cs).map Value.dateTime := by
  have hne : t.colons ≠ 0 := by omega
  simp [readToken, hdashes, hne]

theorem readToken_number {t : DigitToken} (hdashes : t.dashes = 0) (hcolons : t.colons = 0)
    (cs : List Char) : readToken t cs = examine cs ((examineNumber t).map Value.number) := by
  simp [readToken, hdashes, hcolons]

/-! ## Dates and times -/

/-- A text that starts with the text of a date does not look like the start of `0x` either. -/
theorem readDigitLiteral_dateText (d : Date) (cs : List Char) :
    readDigitLiteral (d.text ++ cs) =
      readToken (initial.scan (d.text ++ cs)).1 (initial.scan (d.text ++ cs)).2 := by
  unfold Date.text
  simp only [List.append_assoc]
  exact readDigitLiteral_decimalPadded 2 d.year _

theorem readDigitLiteral_date {d : Date} (h : d.year ≤ 9999) (hrest : Follows rest) :
    readDigitLiteral (d.text ++ rest) = ok (.date d) rest := by
  have hscan : initial.scan (d.text ++ rest) = (initial.advance d.text 2 0, rest) := by
    rw [scan_date rfl rfl, scan_follows hrest]
  have htext : (initial.advance d.text 2 0).text = d.text := text_advance ..
  rw [readDigitLiteral_dateText, hscan, readToken_date rfl rfl, htext, examineDate_text h]
  rfl

theorem readDigitLiteral_time (t : TimeOfDay) (hrest : Follows rest) :
    readDigitLiteral (t.text ++ rest) = ok (.time t) rest := by
  have hscan : initial.scan (t.text ++ rest) = (initial.advance t.text 0 2, rest) := by
    rw [scan_time, scan_follows hrest]
  have hread : readDigitLiteral (t.text ++ rest) =
      readToken (initial.scan (t.text ++ rest)).1 (initial.scan (t.text ++ rest)).2 := by
    unfold TimeOfDay.text
    simp only [List.append_assoc]
    exact readDigitLiteral_decimalPadded 0 t.hour _
  have htext : (initial.advance t.text 0 2).text = t.text := text_advance ..
  rw [hread, hscan, readToken_time rfl rfl, htext, examineTime_text t]
  rfl

/-- The name of a zone is read after its space, whether the offset was written `Z` or not. -/
theorem readZone_name (text : List Char) (zulu : Bool) (zone : Zone) (hrest : Follows rest) :
    readZone text zulu (' ' :: (zone.name.toList ++ rest)) = ok zone rest := by
  obtain ⟨c, cs, hname, hupper, hall⟩ := zone.exists_name_cons
  have hstops : Stops Zone.isNameChar rest := hrest.stops (by decide)
  have hzone : Zone.ofName? (String.ofList (c :: cs)) = .ok zone := by
    rw [← hname, String.ofList_toList]
    exact zone.ofName?_name
  rw [hname, List.cons_append]
  simp only [readZone, hupper, if_true]
  rw [← List.cons_append, Stops.takeWhile_append hall hstops, Stops.dropWhile_append hall hstops,
    hzone]
  rfl

theorem readTimestamp_text {t : Timestamp} (h : t.date.year ≤ 9999) (hrest : Follows rest) :
    readTimestamp (t.date.text ++ 'T' :: (t.time.text ++ Timestamp.offsetText t.offset))
      (' ' :: (t.zone.name.toList ++ rest)) = ok t rest := by
  unfold readTimestamp
  rw [examineInstant_text t.time h t.valid]
  simp only [examine_ok, bind_ok]
  rw [readZone_name _ _ _ hrest, bind_ok]
  unfold Timestamp.ofParts?
  rw [dif_pos t.valid]
  rfl

theorem readDigitLiteral_dateTime {t : Timestamp} (h : t.date.year ≤ 9999)
    (hrest : Follows rest) : readDigitLiteral (t.text ++ rest) = ok (.dateTime t) rest := by
  obtain ⟨c, cs, hname, hupper, -⟩ := t.zone.exists_name_cons
  let zone := ' ' :: (t.zone.name.toList ++ rest)
  let clock := t.time.text ++ Timestamp.offsetText t.offset
  have htext : t.text ++ rest = t.date.text ++ 'T' :: (clock ++ zone) := by
    simp [Timestamp.text, clock, zone]
  have hzone : Follows zone := by
    have hquote : c ≠ '"' := by
      rintro rfl
      exact absurd hupper (by decide)
    simp only [zone, hname]
    exact Follows.space hquote
  -- The letter after the date starts the unit, and the rest of the instant goes into it.
  have hscan : ∃ token : DigitToken, initial.scan (t.date.text ++ 'T' :: (clock ++ zone)) =
      (token, zone) ∧ token.dashes = 2 ∧ 2 ≤ token.colons ∧
        token.text = t.date.text ++ 'T' :: clock := by
    refine ⟨(((initial.advance t.date.text 2 0).pushUnit 'T').advance t.time.text 0 2).advance
      (Timestamp.offsetText t.offset) 0 (if t.offset = 0 then 0 else 1), ?_, ?_, ?_, ?_⟩
    · rw [scan_date rfl rfl, scan_cons (u := (initial.advance t.date.text 2 0).pushUnit 'T')]
      · simp only [clock, List.append_assoc]
        rw [scan_time, scan_offset, scan_follows hzone]
        · simp [pushUnit]
        · simp
      · simp [step?, initial, advance]
    · simp [pushUnit, initial]
    · simp [pushUnit, initial]
    · simp [pushUnit, initial, DigitToken.text, advance, clock]
  obtain ⟨token, hscan, hdashes, hcolons, htoken⟩ := hscan
  rw [htext, readDigitLiteral_dateText, hscan, readToken_timestamp hdashes hcolons, htoken,
    readTimestamp_text h hrest]
  rfl

end TagGrid.Zinc
