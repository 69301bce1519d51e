import Mathlib.Data.List.TakeWhile
import TagGrid.Proofs.Reader.Sessions
import TagGrid.Proofs.Value.WellFormed
import TagGrid.Proofs.Zinc.NumberLiterals

/-! # Date and time literals

Dates and times are taken by the loop of the numbers, which leaves out underscores. What it
takes is laid out in fixed places, so a text is read as a date or a time exactly if it has that
layout once these underscores are left out.
-/

namespace TagGrid.Zinc

open Text Outcome DigitToken

variable {setting : Setting} {t u : DigitToken} {c : Char} {next : Option Char}
  {cs text plain rest : List Char} {v : Value}

/-- The text `hh:mm`, `hh:mm:ss` or `hh:mm:ss.fff` of a time with these fields. -/
inductive TimeText : Nat → Nat → Nat → Nat → List Char → Prop
  | short {hour minute : Nat} {h m : List Char} : Digits 2 hour h → Digits 2 minute m →
      TimeText hour minute 0 0 (h ++ ':' :: m)
  | full {hour minute second millisecond : Nat} {cs : List Char} :
      ClockText hour minute second millisecond cs → TimeText hour minute second millisecond cs

/-- The characters behind which an underscore in front of a digit is left out. -/
def beforeGap (c : Char) : Bool := c.isDigit || c == '-' || c == '+'

/-- The characters of dates and times, none of which starts a unit. -/
def isClockChar (c : Char) : Bool := c.isDigit || c == '-' || c == ':' || c == '.'

namespace DigitToken

/-! ## What one character does to a token -/

@[simp] theorem text_push (t : DigitToken) (c : Char) : (t.push c).text = t.text ++ [c] := by
  rw [push_eq_advance, text_advance]

@[simp] theorem text_pushUnit (t : DigitToken) (c : Char) :
    (t.pushUnit c).text = t.text ++ [c] := by
  simp [DigitToken.text, pushUnit]

@[simp] theorem unit_push_eq_nil (t : DigitToken) (c : Char) :
    (t.push c).unit = [] ↔ t.unit = [] := by
  rw [push_eq_advance, unit_advance_eq_nil]

@[simp] theorem colons_push (t : DigitToken) (c : Char) : (t.push c).colons = t.colons := by
  rw [push_eq_advance, colons_advance, Nat.add_zero]

@[simp] theorem unit_pushUnit_ne_nil (t : DigitToken) (c : Char) : (t.pushUnit c).unit ≠ [] := by
  simp [pushUnit]

/-- A token that a character was added to. As long as it has no unit, an underscore can only
come next behind a digit or a sign. -/
structure Pushed (t : DigitToken) (c : Char) (next : Option Char) (u : DigitToken) : Prop where
  text : u.text = t.text ++ [c]
  colons : u.colons = t.colons + [c].count ':'
  plain : u.unit = [] → t.unit = [] ∧ c ≠ '_' ∧ (next = some '_' → beforeGap c = true)
  clock : isClockChar c = true → t.unit = [] → u.unit = []

theorem Pushed.of_push (htext : u.text = (t.push c).text) (hunit : u.unit = (t.push c).unit)
    (hcolons : u.colons = (t.push c).colons) (hcolon : c ≠ ':') (hgap : c ≠ '_')
    (hnext : t.unit = [] → next = some '_' → beforeGap c = true) : Pushed t c next u where
  text := by rw [htext, text_push]
  colons := by
    rw [hcolons, colons_push, List.count_singleton, if_neg (by simpa using hcolon), Nat.add_zero]
  plain := by
    intro hempty
    rw [hunit, unit_push_eq_nil] at hempty
    exact ⟨hempty, hgap, hnext hempty⟩
  clock := by
    intro _ hempty
    rw [hunit, unit_push_eq_nil, hempty]

theorem Pushed.of_pushUnit (hclock : isClockChar c = false) : Pushed t c next (t.pushUnit c) where
  text := text_pushUnit t c
  colons := by
    have hcolon : c ≠ ':' := by
      rintro rfl
      cases hclock
    rw [List.count_singleton, if_neg (by simpa using hcolon), Nat.add_zero]
    rfl
  plain := fun hempty => absurd hempty (unit_pushUnit_ne_nil t c)
  clock := by
    rw [hclock]
    nofun

/-- A character is added to a token or, being an underscore between digits, left out. -/
theorem step?_cases (h : t.step? c next = some u) :
    (c = '_' ∧ t.unit = [] ∧ nextIsDigit next = true ∧ u = t) ∨ Pushed t c next u := by
  have hletter : c.isAlpha = true ∨ c = '%' ∨ c = '$' ∨ c = '/' ∨ 127 < c.toNat →
      isClockChar c = false := by
    intro h
    rw [Bool.eq_false_iff]
    intro hclock
    simp only [isClockChar, Bool.or_eq_true, beq_iff_eq] at hclock
    rcases hclock with ((hdigit | rfl) | rfl) | rfl
    · rw [isDigit_iff] at hdigit
      rw [isAlpha_iff] at h
      rcases h with h | rfl | rfl | rfl | h
      · omega
      · exact absurd hdigit (by decide)
      · exact absurd hdigit (by decide)
      · exact absurd hdigit (by decide)
      · omega
    all_goals exact absurd h (by decide)
  have hnoDigit (h : nextIsDigit next = true) : next ≠ some '_' := by
    rintro rfl
    cases h
  unfold step? at h
  obtain ⟨hdigit, h⟩ | ⟨-, h⟩ := ite_eq_iff.1 h
  · cases h
    refine .inr (.of_push rfl rfl rfl ?_ ?_ fun _ _ => by simp [beforeGap, hdigit])
    · rintro rfl
      exact absurd hdigit (by decide)
    · rintro rfl
      exact absurd hdigit (by decide)
  obtain ⟨⟨-, hsign⟩, h⟩ | ⟨-, h⟩ := ite_eq_iff.1 h
  · cases h
    rcases hsign with rfl | rfl
    · exact .inr (.of_push rfl rfl rfl (by decide) (by decide) fun _ _ => rfl)
    · exact .inr (.of_push rfl rfl rfl (by decide) (by decide) fun _ _ => rfl)
  obtain ⟨⟨hunit, hmark⟩, h⟩ | ⟨-, h⟩ := ite_eq_iff.1 h
  · cases h
    rcases hmark with rfl | rfl
    · exact .inr (.of_push rfl rfl rfl (by decide) (by decide) fun hempty => absurd hempty hunit)
    · exact .inr (.of_push rfl rfl rfl (by decide) (by decide) fun hempty => absurd hempty hunit)
  obtain ⟨rfl, h⟩ | ⟨-, h⟩ := ite_eq_iff.1 h
  · cases h
    exact .inr (.of_push rfl rfl rfl (by decide) (by decide) fun _ _ => rfl)
  obtain ⟨⟨rfl, hnext⟩, h⟩ | ⟨-, h⟩ := ite_eq_iff.1 h
  · cases h
    refine .inr ⟨text_push t ':', rfl, fun hempty => ?_, fun _ => (unit_push_eq_nil t ':').2⟩
    exact ⟨(unit_push_eq_nil t ':').1 hempty, by decide, fun heq => absurd heq (hnoDigit hnext)⟩
  obtain ⟨⟨-, rfl⟩, h⟩ | ⟨-, h⟩ := ite_eq_iff.1 h
  · cases h
    exact .inr (.of_push rfl rfl rfl (by decide) (by decide) fun _ _ => rfl)
  obtain ⟨rfl, h⟩ | ⟨-, h⟩ := ite_eq_iff.1 h
  · obtain ⟨hnext, h⟩ | ⟨-, h⟩ := ite_eq_iff.1 h
    · cases h
      exact .inr (.of_push rfl rfl rfl (by decide) (by decide)
        fun _ heq => absurd heq (hnoDigit hnext))
    · cases h
  obtain ⟨⟨hmark, -, hnext⟩, h⟩ | ⟨-, h⟩ := ite_eq_iff.1 h
  · cases h
    have hno : next ≠ some '_' := by
      rcases hnext with hnext | rfl | rfl
      · exact hnoDigit hnext
      · decide
      · decide
    rcases hmark with rfl | rfl
    · exact .inr (.of_push rfl rfl rfl (by decide) (by decide) fun _ heq => absurd heq hno)
    · exact .inr (.of_push rfl rfl rfl (by decide) (by decide) fun _ heq => absurd heq hno)
  obtain ⟨hkind, h⟩ | ⟨-, h⟩ := ite_eq_iff.1 h
  · cases h
    exact .inr (.of_pushUnit (hletter hkind))
  obtain ⟨rfl, h⟩ | ⟨-, h⟩ := ite_eq_iff.1 h
  · obtain ⟨⟨hempty, hnext⟩, h⟩ | ⟨-, h⟩ := ite_eq_iff.1 h
    · cases h
      exact .inl ⟨rfl, hempty, hnext, rfl⟩
    · cases h
      exact .inr (.of_pushUnit (by decide))
  · cases h

/-- Behind a digit or a sign the next character makes no difference. -/
theorem step?_beforeGap (hc : beforeGap c = true) (next next' : Option Char) :
    t.step? c next = t.step? c next' := by
  simp only [beforeGap, Bool.or_eq_true, beq_iff_eq] at hc
  rcases hc with (hdigit | rfl) | rfl
  · simp only [step?, hdigit, if_true]
  · simp only [step?, if_true]
  · simp only [step?, Char.reduceEq, false_or, false_and, if_false]

/-! ## What is left out when a text is taken -/

/-- No digit is left behind. -/
theorem stops_scan (t : DigitToken) (cs : List Char) : Stops Char.isDigit (t.scan cs).2 := by
  fun_induction scan t cs with
  | case1 => exact Stops.nil
  | case2 t c cs t' _ ih => exact ih
  | case3 t c cs hstep =>
    apply Stops.cons
    rw [Bool.eq_false_iff]
    intro hdigit
    simp only [step?, hdigit, if_true, reduceCtorEq] at hstep

/-- Until a unit starts, a token takes the text with some underscores left out. -/
structure Takes (t u : DigitToken) (cs taken kept rest : List Char) : Prop where
  split : cs = taken ++ rest
  text : u.text = t.text ++ kept
  colons : u.colons = t.colons + kept.count ':'
  unit : t.unit = []
  gapped : cs.head? ≠ some '_' → Gapped beforeGap taken kept
  behind : ∀ c, beforeGap c = true → Gapped beforeGap (c :: taken) (c :: kept)

theorem exists_takes (hscan : t.scan cs = (u, rest)) (hunit : u.unit = []) :
    ∃ taken kept, Takes t u cs taken kept rest := by
  fun_induction scan t cs with
  | case1 t =>
    cases hscan
    exact ⟨[], [], rfl, (List.append_nil _).symm, rfl, hunit, fun _ => .nil,
      fun c _ => .keep c .nil⟩
  | case3 t c cs =>
    cases hscan
    exact ⟨[], [], rfl, (List.append_nil _).symm, rfl, hunit, fun _ => .nil,
      fun c _ => .keep c .nil⟩
  | case2 t c cs t' hstep ih =>
    obtain ⟨taken, kept, h⟩ := ih hscan
    rcases step?_cases hstep with ⟨rfl, hempty, hnext, rfl⟩ | hpushed
    · have hhead : cs.head? ≠ some '_' := by
        intro heq
        rw [heq] at hnext
        cases hnext
      have htaken : nextIsDigit taken.head? = true := by
        cases taken with
        | cons d taken =>
          rw [h.split] at hnext
          exact hnext
        | nil =>
          -- A digit that comes next would have been taken.
          have hstops := stops_scan t' cs
          rw [hscan, ← List.nil_append rest, ← h.split] at hstops
          obtain ⟨d, hd, hdigit⟩ := (Option.any_eq_true _ _).1 hnext
          rw [hstops d hd] at hdigit
          cases hdigit
      refine ⟨'_' :: taken, kept, ?_, h.text, h.colons, h.unit, fun hne => absurd rfl hne, ?_⟩
      · rw [h.split]
        rfl
      · exact fun c hc => .gap hc htaken (h.gapped hhead)
    · obtain ⟨hempty, hgap, hbefore⟩ := hpushed.plain h.unit
      have hkeep : Gapped beforeGap (c :: taken) (c :: kept) := by
        by_cases hhead : cs.head? = some '_'
        · exact h.behind c (hbefore hhead)
        · exact .keep c (h.gapped hhead)
      refine ⟨c :: taken, c :: kept, ?_, ?_, ?_, hempty, fun _ => hkeep, fun d _ => .keep d hkeep⟩
      · rw [h.split]
        rfl
      · rw [h.text, hpushed.text, List.append_assoc]
        rfl
      · rw [h.colons, hpushed.colons, Nat.add_assoc, ← List.count_append]
        rfl

/-- Underscores between digits change nothing, as long as no unit starts. -/
theorem scan_of_gapped (h : Gapped beforeGap text plain) (hscan : t.scan plain = (u, []))
    (hunit : u.unit = []) : t.scan text = (u, []) := by
  have hstep {t : DigitToken} {c : Char} {plain : List Char}
      (hscan : t.scan (c :: plain) = (u, [])) :
      ∃ t', t.step? c plain.head? = some t' ∧ t'.scan plain = (u, []) := by
    cases hnext : t.step? c plain.head? with
    | none =>
      simp only [scan, hnext] at hscan
      cases hscan
    | some t' => exact ⟨t', rfl, by simpa only [scan, hnext] using hscan⟩
  induction h generalizing t with
  | nil => exact hscan
  | keep c h ih =>
    obtain ⟨t', hnext, hscan⟩ := hstep hscan
    rw [← h.head?_eq] at hnext
    rw [scan_cons hnext]
    exact ih hscan
  | gap hc hdigit h ih =>
    obtain ⟨t', hnext, hscan⟩ := hstep hscan
    rw [step?_beforeGap hc _ (some '_')] at hnext
    obtain ⟨_, _, htakes⟩ := exists_takes hscan hunit
    rw [scan_cons hnext, scan_gap htakes.unit hdigit]
    exact ih hscan

theorem text_prefix_scan (t : DigitToken) (cs : List Char) : t.text <+: (t.scan cs).1.text := by
  fun_induction scan t cs with
  | case1 => exact List.prefix_refl _
  | case3 => exact List.prefix_refl _
  | case2 t c cs t' hstep ih =>
    rcases step?_cases hstep with ⟨-, -, -, rfl⟩ | hpushed
    · exact ih
    · exact (hpushed.text ▸ List.prefix_append _ _).trans ih

/-- A token of nothing but characters of dates and times has no unit. -/
theorem unit_scan (hunit : t.unit = []) (hclock : ∀ c ∈ (t.scan cs).1.text, isClockChar c = true) :
    (t.scan cs).1.unit = [] := by
  fun_induction scan t cs with
  | case1 => exact hunit
  | case3 => exact hunit
  | case2 t c cs t' hstep ih =>
    refine ih ?_ hclock
    rcases step?_cases hstep with ⟨-, -, -, rfl⟩ | hpushed
    · exact hunit
    · refine hpushed.clock (hclock c ((text_prefix_scan t' cs).subset ?_)) hunit
      rw [hpushed.text]
      exact List.mem_append_right _ List.mem_cons_self

end DigitToken

/-! ## The texts of dates and times -/

section Texts

variable {year month day hour minute second millisecond : Nat} {d : Date} {time : TimeOfDay}

theorem isClockChar_of_isDigit (h : c.isDigit = true) : isClockChar c = true := by
  simp [isClockChar, h]

theorem Digits.mem_clock {width n : Nat} (h : Digits width n cs) :
    ∀ c ∈ cs, isClockChar c = true := fun c hc => isClockChar_of_isDigit (h.isDigit c hc)

theorem clock_append {as bs : List Char} (has : ∀ c ∈ as, isClockChar c = true)
    (hc : isClockChar c = true) (hbs : ∀ c ∈ bs, isClockChar c = true) :
    ∀ d ∈ as ++ c :: bs, isClockChar d = true := by
  intro d hd
  rcases List.mem_append.1 hd with hd | hd
  · exact has d hd
  · rcases List.mem_cons.1 hd with rfl | hd
    · exact hc
    · exact hbs d hd

theorem DateText.mem_clock (h : DateText year month day cs) : ∀ c ∈ cs, isClockChar c = true := by
  obtain ⟨y, m, d, hyear, hmonth, hday, rfl⟩ := h
  exact clock_append hyear.mem_clock rfl (clock_append hmonth.mem_clock rfl hday.mem_clock)

theorem ClockText.mem_clock (h : ClockText hour minute second millisecond cs) :
    ∀ c ∈ cs, isClockChar c = true := by
  obtain ⟨h, m, s, f, hhour, hminute, hsecond, hfraction, rfl⟩ := h
  refine clock_append hhour.mem_clock rfl (clock_append hminute.mem_clock rfl ?_)
  cases hfraction with
  | none =>
    rw [List.append_nil]
    exact hsecond.mem_clock
  | point _ _ hdigits => exact clock_append hsecond.mem_clock rfl hdigits.mem_clock

theorem TimeText.mem_clock (h : TimeText hour minute second millisecond cs) :
    ∀ c ∈ cs, isClockChar c = true := by
  cases h with
  | short hhour hminute => exact clock_append hhour.mem_clock rfl hminute.mem_clock
  | full hclock => exact hclock.mem_clock

/-- A time without seconds is the one whose seconds are zero. -/
theorem timeText_of_short (hcolons : cs.count ':' = 1)
    (h : ClockText hour minute second millisecond (cs ++ [':', '0', '0'])) :
    TimeText hour minute second millisecond cs := by
  obtain ⟨h, m, s, f, hhour, hminute, hsecond, hfraction, htext⟩ := h
  obtain ⟨h₁, h₂, rfl, -⟩ := hhour.exists_two
  obtain ⟨m₁, m₂, rfl, -⟩ := hminute.exists_two
  obtain ⟨s₁, s₂, rfl, -⟩ := hsecond.exists_two
  have hlength := congrArg List.length htext
  simp only [List.length_append, List.length_cons, List.length_nil] at hlength
  match cs, htext with
  | a :: b :: c :: d :: e :: more, htext =>
    simp only [List.cons_append, List.nil_append, List.cons.injEq] at htext
    obtain ⟨rfl, rfl, rfl, rfl, rfl, htext⟩ := htext
    cases more with
    | nil =>
      obtain ⟨rfl, rfl, rfl⟩ : s₁ = '0' ∧ s₂ = '0' ∧ f = [] := by simpa [eq_comm] using htext
      obtain rfl : second = 0 := hsecond.value.symm
      cases hfraction
      exact .short hhour hminute
    | cons c more =>
      obtain rfl : c = ':' := (List.cons.inj htext).1
      simp only [List.count_cons, beq_self_eq_true, if_true] at hcolons
      omega

/-- What the loop makes of the text of a date. -/
theorem DateText.scan (h : DateText year month day cs) :
    initial.scan cs = (initial.advance cs 2 0, []) := by
  obtain ⟨y, m, d, hyear, hmonth, hday, rfl⟩ := h
  have hscan := scan_dashed (t := initial) rfl rfl hyear.isDigit hmonth.isDigit hday.isDigit []
  rwa [List.append_nil] at hscan

theorem ClockText.scan (h : ClockText hour minute second millisecond cs) :
    initial.scan cs = (initial.advance cs 0 2, []) := by
  have hscan := scan_clock (t := initial) h []
  rwa [List.append_nil] at hscan

theorem scan_minutes {h m : List Char} (hhour : Digits 2 hour h) (hminute : Digits 2 minute m) :
    initial.scan (h ++ ':' :: m) = (initial.advance (h ++ ':' :: m) 0 1, []) := by
  have hscan : initial.scan (h ++ ':' :: (m ++ [])) =
      (initial.advance (h ++ ':' :: m) 0 1).scan [] := by
    rw [scan_digits hhour.isDigit, scan_colon (nextIsDigit_digits hminute []),
      scan_digits hminute.isDigit]
    simp only [advance_advance, List.append_assoc, List.cons_append, List.nil_append]
  rwa [List.append_nil] at hscan

theorem Digits.exists_cons {width n : Nat} (h : Digits (width + 1) n cs) (rest : List Char) :
    ∃ c more, cs ++ rest = c :: more ∧ c.isDigit = true := by
  cases cs with
  | nil => cases h.length
  | cons c cs => exact ⟨c, cs ++ rest, rfl, h.isDigit c List.mem_cons_self⟩

theorem TimeText.exists_cons (h : TimeText hour minute second millisecond cs) :
    ∃ c more, cs = c :: more ∧ c.isDigit = true := by
  cases h with
  | short hhour _ => exact hhour.exists_cons _
  | full hclock =>
    obtain ⟨h, m, s, f, hhour, -, -, -, rfl⟩ := hclock
    exact hhour.exists_cons _

end Texts

/-! ## Reading dates and times -/

/-- Dates and times are the values whose literals are laid out in fixed places. -/
def isDateOrTime : Value → Bool
  | .date _ => true
  | .time _ => true
  | _ => false

theorem not_isDateOrTime {o : Outcome (Option Value)} (hv : isDateOrTime v = true)
    (h : Yields (fun w => w.any isDateOrTime = false) o) : o ≠ ok (some v) rest := by
  intro heq
  have hnot := h.of_ok heq
  rw [Option.any_some, hv] at hnot
  cases hnot

theorem isDateOrTime_keyword? {word : List Char} {value : Option Value}
    (h : keyword? setting word = some value) : value.any isDateOrTime = false := by
  unfold keyword? at h
  -- Ten words one after another, and no value after the last of them.
  iterate 10
    obtain ⟨-, h⟩ | ⟨-, h⟩ := ite_eq_iff.1 h
    · cases h
      rfl
  cases h

theorem isDateOrTime_readWordValue (setting : Setting) (cs : List Char) :
    Yields (fun w => w.any isDateOrTime = false) (readWordValue setting cs) := by
  unfold readWordValue
  simp only
  split
  · rename_i hkeyword
    exact isDateOrTime_keyword? hkeyword
  · split
    · split_ifs
      · exact Yields.last fun _ _ => rfl
      · exact Yields.last fun _ _ => rfl
      · exact Yields.last fun _ _ => rfl
      · trivial
    · trivial

/-- Only a literal that starts with a digit, or with a dash before one, can be a date or a
time. -/
theorem readDigitLiteral_of_dateOrTime (hv : isDateOrTime v = true)
    (h : readValue setting text = ok (some v) rest) :
    ∃ c cs, text = c :: cs ∧ beforeGap c = true ∧ readDigitLiteral text = ok v rest := by
  rw [readValue.eq_def] at h
  split at h
  · exact absurd h (not_isDateOrTime hv (Yields.last fun _ _ => rfl))
  · unfold readAtom at h
    split at h
    · cases h
    · obtain ⟨w, mid, hnegative, hok⟩ := exists_of_bind_eq_ok h
      cases hok
      unfold readNegative at hnegative
      simp only at hnegative
      split at hnegative
      · split at hnegative
        · cases hnegative
          cases hv
        · cases hnegative
      · split at hnegative
        · exact ⟨_, _, rfl, rfl, hnegative⟩
        · cases hnegative
      · cases hnegative
    · exact absurd h (not_isDateOrTime hv (Yields.last fun _ _ => rfl))
    · exact absurd h (not_isDateOrTime hv (Yields.last fun _ _ => rfl))
    · exact absurd h (not_isDateOrTime hv (Yields.last fun _ _ => rfl))
    · exact absurd h (not_isDateOrTime hv (Yields.last fun _ _ => rfl))
    · split at h
      · rename_i hdigit
        obtain ⟨w, mid, hread, hok⟩ := exists_of_bind_eq_ok h
        cases hok
        exact ⟨_, _, rfl, by simp [beforeGap, hdigit], hread⟩
      · split at h
        · exact absurd h (not_isDateOrTime hv (isDateOrTime_readWordValue _ _))
        · cases h

theorem readToken_of_dateOrTime (hv : isDateOrTime v = true)
    (h : readDigitLiteral (c :: cs) = ok v rest) :
    readToken ((start c).scan cs).1 ((start c).scan cs).2 = ok v rest := by
  unfold readDigitLiteral at h
  split at h
  · rename_i digits _
    have hnumber :=
      yields_readHexNumber (p := fun w => isDateOrTime w = false) (fun _ => rfl) digits
    rw [hnumber.of_ok h] at hv
    cases hv
  · rename_i heq
    cases heq
    exact h
  · rename_i heq
    cases heq

theorem exists_of_examine {α β : Type} {e : Except Fault α} {f : α → β} {b : β}
    (h : examine cs (e.map f) = ok b rest) : ∃ a, e = .ok a ∧ f a = b ∧ cs = rest := by
  cases e with
  | error fault => cases h
  | ok a =>
    cases h
    exact ⟨a, rfl, rfl, rfl⟩

theorem examineDate_of_readToken {d : Date} (h : readToken t cs = ok (.date d) rest) :
    examineDate t.text = .ok d ∧ cs = rest := by
  unfold readToken at h
  split at h
  · obtain ⟨a, hdate, ha, hrest⟩ := exists_of_examine h
    cases ha
    exact ⟨hdate, hrest⟩
  split at h
  · obtain ⟨a, -, ha, -⟩ := exists_of_examine h
    cases ha
  split at h
  · obtain ⟨a, mid, -, ha⟩ := exists_of_bind_eq_ok h
    cases ha
  · obtain ⟨a, -, ha, -⟩ := exists_of_examine h
    cases ha

theorem examineTime_of_readToken {time : TimeOfDay} (h : readToken t cs = ok (.time time) rest) :
    examineTime (if t.colons = 1 then t.text ++ [':', '0', '0'] else t.text) = .ok time ∧
      cs = rest := by
  unfold readToken at h
  split at h
  · obtain ⟨a, -, ha, -⟩ := exists_of_examine h
    cases ha
  split at h
  · obtain ⟨a, htime, ha, hrest⟩ := exists_of_examine h
    cases ha
    exact ⟨htime, hrest⟩
  split at h
  · obtain ⟨a, mid, -, ha⟩ := exists_of_bind_eq_ok h
    cases ha
  · obtain ⟨a, -, ha, -⟩ := exists_of_examine h
    cases ha

/-- Without a unit, a token is the text that it was taken for, with some underscores left
out. -/
theorem gapped_of_scan (hc : beforeGap c = true) (hscan : (start c).scan cs = (u, []))
    (hclock : ∀ d ∈ u.text, isClockChar d = true) :
    u.colons = u.text.count ':' ∧ Gapped beforeGap (c :: cs) u.text := by
  have hunit : u.unit = [] := by
    have hfinal : ((start c).scan cs).1.unit = [] := unit_scan rfl (by rwa [hscan])
    rwa [hscan] at hfinal
  obtain ⟨taken, kept, h⟩ := exists_takes hscan hunit
  have htext : u.text = c :: kept := h.text
  have hcolon : c ≠ ':' := by
    rintro rfl
    cases hc
  have hcs : cs = taken := by rw [h.split, List.append_nil]
  constructor
  · rw [h.colons, htext, List.count_cons_of_ne hcolon]
    exact Nat.zero_add _
  · rw [htext, hcs]
    exact h.behind c hc

/-- A text that starts with a digit is read as the token of the text without its
underscores. -/
theorem readValue_of_gapped (h : Gapped beforeGap text plain)
    (hscan : initial.scan plain = (u, [])) (hunit : u.unit = [])
    (hstart : ∃ c cs, plain = c :: cs ∧ c.isDigit = true)
    (hclock : ∀ c ∈ plain, isClockChar c = true) :
    readValue setting text = (readToken u []).map some := by
  obtain ⟨c, more, rfl, hdigit⟩ := hstart
  have hhead := h.head?_eq
  obtain ⟨cs, rfl⟩ := List.head?_eq_some_iff.1 hhead
  have hx : c = '0' → cs.head? ≠ some 'x' := by
    intro _ hx
    rcases h.mem (List.mem_cons_of_mem c (List.mem_of_mem_head? hx)) with hmem | hgap
    · exact absurd (hclock 'x' hmem) (by decide)
    · exact absurd hgap (by decide)
  rw [readValue_digit hdigit, readDigitLiteral_cons hdigit hx, scan_of_gapped h hscan hunit]

theorem readValue_eq_date {d : Date} : readValue setting text = ok (some (.date d)) [] ↔
    ∃ plain, Gapped beforeGap text plain ∧ DateText d.year d.month d.day plain := by
  constructor
  · intro h
    obtain ⟨c, cs, rfl, hc, hread⟩ := readDigitLiteral_of_dateOrTime rfl h
    obtain ⟨hdate, hrest⟩ := examineDate_of_readToken (readToken_of_dateOrTime rfl hread)
    rw [examineDate_eq_ok] at hdate
    have hscan : (start c).scan cs = (((start c).scan cs).1, []) := by rw [← hrest]
    exact ⟨_, (gapped_of_scan hc hscan hdate.mem_clock).2, hdate⟩
  · rintro ⟨plain, hgapped, hdate⟩
    have hstart : ∃ c cs, plain = c :: cs ∧ c.isDigit = true := by
      obtain ⟨y, m, day, hyear, -, -, rfl⟩ := hdate
      exact hyear.exists_cons _
    have htext : (initial.advance plain 2 0).text = plain := text_advance ..
    rw [readValue_of_gapped hgapped hdate.scan rfl hstart hdate.mem_clock,
      readToken_date rfl rfl, htext, examineDate_eq_ok.2 hdate]
    rfl

theorem exists_token_of_timeText {time : TimeOfDay}
    (h : TimeText time.hour time.minute time.second time.millisecond plain) :
    ∃ u, initial.scan plain = (u, []) ∧ u.unit = [] ∧ readToken u [] = ok (.time time) [] := by
  generalize hhour : time.hour = hour, hminute : time.minute = minute,
    hsecond : time.second = second, hmillisecond : time.millisecond = millisecond at h
  cases h with
  | @short h m hdigits hdigits' =>
    have hscan := scan_minutes hdigits hdigits'
    have hzero : Digits 2 0 ['0', '0'] := .of_digits? (by decide) rfl rfl
    have htime : examineTime ((h ++ ':' :: m) ++ [':', '0', '0']) = .ok time := by
      rw [examineTime_eq_ok, hhour, hminute, hsecond, hmillisecond]
      exact ⟨h, m, _, _, hdigits, hdigits', hzero, .none, by simp⟩
    have htext : (initial.advance (h ++ ':' :: m) 0 1).text = h ++ ':' :: m := text_advance ..
    refine ⟨_, hscan, rfl, ?_⟩
    have hread : readToken (initial.advance (h ++ ':' :: m) 0 1) [] =
        examine [] ((examineTime ((initial.advance (h ++ ':' :: m) 0 1).text ++
          [':', '0', '0'])).map .time) := rfl
    rw [hread, htext, htime]
    rfl
  | full hclock =>
    have htext : (initial.advance plain 0 2).text = plain := text_advance ..
    subst hhour hminute hsecond hmillisecond
    refine ⟨_, hclock.scan, rfl, ?_⟩
    rw [readToken_time rfl rfl, htext, examineTime_eq_ok.2 hclock]
    rfl

theorem readValue_eq_time {time : TimeOfDay} : readValue setting text = ok (some (.time time)) [] ↔
    ∃ plain, Gapped beforeGap text plain ∧
      TimeText time.hour time.minute time.second time.millisecond plain := by
  constructor
  · intro h
    obtain ⟨c, cs, rfl, hc, hread⟩ := readDigitLiteral_of_dateOrTime rfl h
    obtain ⟨htime, hrest⟩ := examineTime_of_readToken (readToken_of_dateOrTime rfl hread)
    rw [examineTime_eq_ok] at htime
    have hscan : (start c).scan cs = (((start c).scan cs).1, []) := by rw [← hrest]
    have hclock : ∀ d ∈ ((start c).scan cs).1.text, isClockChar d = true := by
      intro d hd
      apply htime.mem_clock
      split
      · exact List.mem_append_left _ hd
      · exact hd
    obtain ⟨hcolons, hgapped⟩ := gapped_of_scan hc hscan hclock
    refine ⟨_, hgapped, ?_⟩
    split at htime
    · rename_i hshort
      rw [hcolons] at hshort
      exact timeText_of_short hshort htime
    · exact .full htime
  · rintro ⟨plain, hgapped, htime⟩
    obtain ⟨u, hscan, hunit, hread⟩ := exists_token_of_timeText htime
    rw [readValue_of_gapped hgapped hscan hunit htime.exists_cons htime.mem_clock, hread]
    rfl

/-! ## Texts that are a date or a time -/

/-- A text with no white space at its ends. -/
structure Trimmed (text : List Char) : Prop where
  front : Stops isBlank text
  back : ∀ c ∈ text.getLast?, isBlank c = false

theorem Trimmed.of_ends {first last : Char} (hfirst : text.head? = some first)
    (hlast : text.getLast? = some last) (hfront : isBlank first = false)
    (hback : isBlank last = false) : Trimmed text where
  front := by
    intro c hc
    rw [hfirst] at hc
    cases hc
    exact hfront
  back := by
    intro c hc
    rw [hlast] at hc
    cases hc
    exact hback

theorem isBlank_of_readEnd (h : readEnd cs = ok () rest) : ∀ c ∈ cs, isBlank c = true := by
  unfold readEnd at h
  split at h
  · rename_i hskip
    exact List.dropWhile_eq_nil_iff.1 hskip
  · cases h

/-- White space is not left over at the end of a text that does not end with any. -/
theorem Trimmed.eq_nil (h : Trimmed text) (hsuffix : rest <:+ text)
    (hblank : ∀ c ∈ rest, isBlank c = true) : rest = [] := by
  obtain ⟨taken, rfl⟩ := hsuffix
  cases hlast : rest.getLast? with
  | none => exact List.getLast?_eq_none_iff.1 hlast
  | some c =>
    have hback := h.back c (by rw [List.getLast?_append, hlast]; rfl)
    rw [hblank c (List.mem_of_getLast? hlast)] at hback
    cases hback

/-- A text without white space at its ends is the value that all of it is read as. -/
theorem toValue?_eq_ok_iff {s : String} (h : Trimmed s.toList) :
    toValue? s = .ok (some v) ↔ readValue .data s.toList = ok (some v) [] := by
  have hskip := skipBlanks_eq h.front
  constructor
  · intro hvalue
    obtain ⟨left, hscalar⟩ := Reader.exists_of_run_eq_ok (r := Reader.ofText s) hvalue
    change readScalar .data s.toList = _ at hscalar
    unfold readScalar at hscalar
    rw [hskip] at hscalar
    obtain ⟨value, rest, hread, hend⟩ := exists_of_bind_eq_ok hscalar
    obtain ⟨_, left', hend, hok⟩ := exists_of_bind_eq_ok hend
    cases hok
    have hsuffix := (within_readValue .data s.toList).suffix_of_ok hread
    rw [hread, h.eq_nil hsuffix (isBlank_of_readEnd hend)]
  · intro hread
    have hvalue := toValue?_of_readValue hskip hread
    rwa [String.ofList_toList] at hvalue

/-- A text is read as the date with these fields. -/
def ReadAsDate (s : String) (year month day : Nat) : Prop :=
  ∃ d : Date, toValue? s = .ok (some (.date d)) ∧ d.year = year ∧ d.month = month ∧ d.day = day

/-- A text is read as the time with these fields. -/
def ReadAsTime (s : String) (hour minute second millisecond : Nat) : Prop :=
  ∃ t : TimeOfDay, toValue? s = .ok (some (.time t)) ∧
    t.hour = hour ∧ t.minute = minute ∧ t.second = second ∧ t.millisecond = millisecond

theorem readAsDate_iff {s : String} (h : Trimmed s.toList) (year month day : Nat) :
    ReadAsDate s year month day ↔ CalendarDay year month day ∧
      ∃ plain, Gapped beforeGap s.toList plain ∧ DateText year month day plain := by
  constructor
  · rintro ⟨d, hvalue, rfl, rfl, rfl⟩
    exact ⟨d.wellFormed, readValue_eq_date.1 ((toValue?_eq_ok_iff h).1 hvalue)⟩
  · rintro ⟨hday, hplain⟩
    refine ⟨⟨year, month, day, calendarDay_iff.2 hday⟩, ?_, rfl, rfl, rfl⟩
    exact (toValue?_eq_ok_iff h).2 (readValue_eq_date.2 hplain)

theorem readAsTime_iff {s : String} (h : Trimmed s.toList) (hour minute second millisecond : Nat) :
    ReadAsTime s hour minute second millisecond ↔ ClockTime hour minute second millisecond ∧
      ∃ plain, Gapped beforeGap s.toList plain ∧ TimeText hour minute second millisecond plain := by
  constructor
  · rintro ⟨t, hvalue, rfl, rfl, rfl, rfl⟩
    exact ⟨t.wellFormed, readValue_eq_time.1 ((toValue?_eq_ok_iff h).1 hvalue)⟩
  · rintro ⟨⟨hhour, hminute, hsecond, hmillisecond⟩, hplain⟩
    refine ⟨⟨hour, minute, second, millisecond, by omega⟩, ?_, rfl, rfl, rfl, rfl⟩
    exact (toValue?_eq_ok_iff h).2 (readValue_eq_time.2 hplain)

/-- A text without underscores is its own plain text. -/
theorem exists_gapped_iff {p : List Char → Prop} (hgap : '_' ∉ text) :
    (∃ plain, Gapped beforeGap text plain ∧ p plain) ↔ p text := by
  constructor
  · rintro ⟨plain, hgapped, hplain⟩
    rwa [hgapped.eq_of_not_mem hgap] at hplain
  · exact fun hplain => ⟨text, Gapped.refl text, hplain⟩

/-- A text without white space at its ends is read as a date exactly if it has the layout of a
date whose fields are a day of the calendar, and as a time exactly if it has a layout of a time
whose fields are in range, in both cases after leaving out single underscores in front of digits
and behind a digit or a dash. Without underscores these are the layouts of the text itself. -/
theorem dates_and_times_are_read {s : String} (h : Trimmed s.toList) :
    (∀ year month day, ReadAsDate s year month day ↔ CalendarDay year month day ∧
      ∃ plain, Gapped beforeGap s.toList plain ∧ DateText year month day plain) ∧
    (∀ hour minute second millisecond, ReadAsTime s hour minute second millisecond ↔
      ClockTime hour minute second millisecond ∧
        ∃ plain, Gapped beforeGap s.toList plain ∧ TimeText hour minute second millisecond plain) ∧
    ('_' ∉ s.toList →
      (∀ year month day, ReadAsDate s year month day ↔
        CalendarDay year month day ∧ DateText year month day s.toList) ∧
      ∀ hour minute second millisecond, ReadAsTime s hour minute second millisecond ↔
        ClockTime hour minute second millisecond ∧
          TimeText hour minute second millisecond s.toList) := by
  refine ⟨readAsDate_iff h, readAsTime_iff h, fun hgap => ⟨?_, ?_⟩⟩
  · intro year month day
    rw [readAsDate_iff h, exists_gapped_iff hgap]
  · intro hour minute second millisecond
    rw [readAsTime_iff h, exists_gapped_iff hgap]

/-- A leap day and half a second after eight are read. -/
theorem leap_day_and_time_are_read :
    (Trimmed "2024-02-29".toList ∧ ReadAsDate "2024-02-29" 2024 2 29) ∧
    Trimmed "08:00:00.5".toList ∧ ReadAsTime "08:00:00.5" 8 0 0 500 := by
  have hdate : Trimmed "2024-02-29".toList := .of_ends rfl rfl (by decide) (by decide)
  have htime : Trimmed "08:00:00.5".toList := .of_ends rfl rfl (by decide) (by decide)
  have hfive : Digits 1 5 ['5'] := .of_digits? (by decide) rfl rfl
  have hhalf : FractionText 500 ['.', '5'] := .point (by decide) (by decide) hfive
  refine ⟨⟨hdate, ?_⟩, htime, ?_⟩
  · refine (((dates_and_times_are_read hdate).2.2 (by decide)).1 2024 2 29).2 ⟨?_, ?_⟩
    · exact ⟨by decide, by decide, by decide, by decide, fun _ => .inr ⟨rfl, by decide, by decide⟩⟩
    · exact ⟨['2', '0', '2', '4'], ['0', '2'], ['2', '9'], .of_digits? (by decide) rfl rfl,
        .of_digits? (by decide) rfl rfl, .of_digits? (by decide) rfl rfl, rfl⟩
  · refine (((dates_and_times_are_read htime).2.2 (by decide)).2 8 0 0 500).2 ⟨?_, ?_⟩
    · exact ⟨by decide, by decide, by decide, by decide⟩
    · exact .full ⟨['0', '8'], ['0', '0'], ['0', '0'], _, .of_digits? (by decide) rfl rfl,
        .of_digits? (by decide) rfl rfl, .of_digits? (by decide) rfl rfl, hhalf, rfl⟩

/-- An underscore within the day is no part of the layout, and the text is read as a date all
the same. -/
theorem underscored_day_is_read :
    Trimmed "2024-03-1_5".toList ∧ ReadAsDate "2024-03-1_5" 2024 3 15 ∧
      ∀ year month day, ¬ DateText year month day "2024-03-1_5".toList := by
  have htrimmed : Trimmed "2024-03-1_5".toList := .of_ends rfl rfl (by decide) (by decide)
  refine ⟨htrimmed, ?_, ?_⟩
  · refine (readAsDate_iff htrimmed 2024 3 15).2 ⟨?_, "2024-03-15".toList, ?_, ?_⟩
    · exact ⟨by decide, by decide, by decide, by decide, fun hmonth => absurd hmonth (by decide)⟩
    · show Gapped beforeGap _ (['2', '0', '2', '4', '-', '0', '3', '-'] ++ ['1', '5'])
      exact .keep _ (.keep _ (.keep _ (.keep _ (.keep _ (.keep _ (.keep _ (.keep _
        (.gap rfl rfl (.keep _ .nil)))))))))
    · exact ⟨['2', '0', '2', '4'], ['0', '3'], ['1', '5'], .of_digits? (by decide) rfl rfl,
        .of_digits? (by decide) rfl rfl, .of_digits? (by decide) rfl rfl, rfl⟩
  · rintro year month day h
    exact absurd (h.mem_clock '_' (by decide)) (by decide)

end TagGrid.Zinc
