import TagGrid.Proofs.Zinc.Numbers
import TagGrid.Proofs.Zinc.Tags

/-! # Number literals

A number literal has more forms than numbers are written in: digits may be set apart by
underscores, a decimal may have an exponent, and a unit may follow either. Each of them is read
up to its end, as the decimal that is left without the underscores and the unit behind it.
-/

namespace TagGrid.Zinc

open Text Outcome DigitToken

/-- A text with single underscores in it, and the same text without them. Each underscore
stands behind a character of the class and in front of a digit. -/
inductive Gapped (behind : Char → Bool) : List Char → List Char → Prop
  | nil : Gapped behind [] []
  | keep (c : Char) {text plain : List Char} :
      Gapped behind text plain → Gapped behind (c :: text) (c :: plain)
  | gap {c : Char} {text plain : List Char} :
      behind c = true → nextIsDigit text.head? = true → Gapped behind text plain →
      Gapped behind (c :: '_' :: text) (c :: plain)

/-- Digits, some of them set apart by an underscore. -/
structure DigitRun where
  text : List Char
  digits : List Char
  gapped : Gapped Char.isDigit text digits
  nonempty : digits ≠ []
  isDigit : ∀ c ∈ digits, c.isDigit = true

/-- The exponent of a number literal: its letter, a sign if it has one, and its digits. -/
structure ExponentLiteral where
  capital : Bool
  /-- Whether the sign is a minus. -/
  sign : Option Bool
  run : DigitRun

/-- A number literal up to its unit. -/
structure NumberLiteral where
  negative : Bool
  whole : DigitRun
  fraction : Option DigitRun
  exponent : Option ExponentLiteral

def signChar (minus : Bool) : Char := if minus then '-' else '+'

namespace ExponentLiteral

def letter (e : ExponentLiteral) : Char := if e.capital then 'E' else 'e'

def signText (e : ExponentLiteral) : List Char := (e.sign.map signChar).toList

/-- The text of an exponent with its digits laid out in one of two ways. -/
def layout (digits : DigitRun → List Char) (e : ExponentLiteral) : List Char :=
  e.letter :: (e.signText ++ digits e.run)

def value (e : ExponentLiteral) : Int :=
  if e.sign = some true then -(Decimal.ofDigits e.run.digits : Int)
  else Decimal.ofDigits e.run.digits

end ExponentLiteral

namespace NumberLiteral

/-- The text of a literal without its sign, with its digits laid out in one of two ways. -/
def unsignedLayout (digits : DigitRun → List Char) (n : NumberLiteral) : List Char :=
  digits n.whole ++ (n.fraction.elim [] fun run => '.' :: digits run) ++
    n.exponent.elim [] (ExponentLiteral.layout digits)

def layout (digits : DigitRun → List Char) (n : NumberLiteral) : List Char :=
  (if n.negative then ['-'] else []) ++ n.unsignedLayout digits

/-- The text of a literal as it is written. -/
def text (n : NumberLiteral) : List Char := n.layout DigitRun.text

/-- The text of a literal without its underscores. -/
def plain (n : NumberLiteral) : List Char := n.layout DigitRun.digits

def fractionDigits (n : NumberLiteral) : List Char := n.fraction.elim [] DigitRun.digits

/-- The decimal that a literal names, without its sign. -/
def decimal (n : NumberLiteral) : Decimal :=
  ⟨Decimal.ofDigits (n.whole.digits ++ n.fractionDigits),
    n.exponent.elim 0 ExponentLiteral.value - n.fractionDigits.length⟩

/-- The double nearest to that decimal. -/
def value (n : NumberLiteral) : Double := n.decimal.toDouble n.negative

end NumberLiteral

variable {behind : Char → Bool} {t : DigitToken} {c : Char} {text plain unit rest : List Char}

namespace Gapped

theorem mem (h : Gapped behind text plain) (hc : c ∈ text) : c ∈ plain ∨ c = '_' := by
  induction h with
  | nil => exact .inl hc
  | keep d _ ih =>
    rcases List.mem_cons.1 hc with rfl | hc
    · exact .inl List.mem_cons_self
    · exact (ih hc).imp_left (List.mem_cons_of_mem d)
  | gap _ _ _ ih =>
    rcases List.mem_cons.1 hc with rfl | hc
    · exact .inl List.mem_cons_self
    rcases List.mem_cons.1 hc with rfl | hc
    · exact .inr rfl
    · exact (ih hc).imp_left (List.mem_cons_of_mem _)

/-- A text starts as it does without its underscores. -/
theorem head?_eq (h : Gapped behind text plain) : text.head? = plain.head? := by
  cases h with
  | nil => rfl
  | keep c _ => rfl
  | gap _ _ _ => rfl

theorem refl : (text : List Char) → Gapped behind text text
  | [] => .nil
  | c :: text => .keep c (refl text)

theorem eq_of_not_mem (h : Gapped behind text plain) (hgap : '_' ∉ text) : plain = text := by
  induction h with
  | nil => rfl
  | keep c _ ih => rw [ih fun hmem => hgap (List.mem_cons_of_mem c hmem)]
  | gap => exact absurd (List.mem_cons_of_mem _ List.mem_cons_self) hgap

end Gapped

/-! ## Runs of digits -/

theorem DigitToken.nextIsDigit_append_of_next (h : nextIsDigit text.head? = true)
    (rest : List Char) : nextIsDigit (text ++ rest).head? = true := by
  cases text with
  | nil => cases h
  | cons c text => exact h

theorem DigitToken.scan_gap (hunit : t.unit = []) (hnext : nextIsDigit rest.head? = true) :
    t.scan ('_' :: rest) = t.scan rest :=
  scan_cons (by simp [step?, hunit, hnext])

namespace DigitRun

variable (run : DigitRun)

theorem exists_cons : ∃ c cs, run.text = c :: cs ∧ c.isDigit = true := by
  obtain ⟨c, digits, hdigits⟩ := List.exists_cons_of_ne_nil run.nonempty
  have hhead := run.gapped.head?_eq
  rw [hdigits] at hhead
  obtain ⟨cs, htext⟩ := List.head?_eq_some_iff.1 hhead
  exact ⟨c, cs, htext, run.isDigit c (hdigits ▸ List.mem_cons_self)⟩

theorem nextIsDigit_text (rest : List Char) : nextIsDigit (run.text ++ rest).head? = true := by
  obtain ⟨c, cs, htext, hc⟩ := run.exists_cons
  rw [htext]
  exact hc

theorem mem_text (hc : c ∈ run.text) : c.isDigit = true ∨ c = '_' :=
  (run.gapped.mem hc).imp_left (run.isDigit c)

/-- The underscores of a run are left out when it is taken. -/
theorem scan (hunit : t.unit = []) (rest : List Char) :
    t.scan (run.text ++ rest) = (t.advance run.digits 0 0).scan rest := by
  have hgaps : t.scan (run.text ++ rest) = t.scan (run.digits ++ rest) := by
    have hdigits := run.isDigit
    have hgapped := run.gapped
    generalize run.text = text, run.digits = digits at hdigits hgapped
    induction hgapped generalizing t with
    | nil => rfl
    | keep c h ih =>
      obtain ⟨hc, hdigits⟩ := List.forall_mem_cons.1 hdigits
      have hstep (next : Option Char) : t.step? c next = some (t.push c) := by simp [step?, hc]
      rw [List.cons_append, List.cons_append, scan_cons (hstep _), scan_cons (hstep _)]
      exact ih (by simpa [push_eq_advance] using hunit) hdigits
    | @gap c text plain _ hnext h ih =>
      obtain ⟨hc, hdigits⟩ := List.forall_mem_cons.1 hdigits
      have hstep (next : Option Char) : t.step? c next = some (t.push c) := by simp [step?, hc]
      have hunit' : (t.push c).unit = [] := by simpa [push_eq_advance] using hunit
      have hnext' : nextIsDigit (text ++ rest).head? = true := nextIsDigit_append_of_next hnext rest
      calc t.scan (c :: '_' :: (text ++ rest))
          = (t.push c).scan ('_' :: (text ++ rest)) := scan_cons (hstep _)
        _ = (t.push c).scan (text ++ rest) := scan_gap hunit' hnext'
        _ = (t.push c).scan (plain ++ rest) := ih hunit' hdigits
        _ = t.scan (c :: (plain ++ rest)) := (scan_cons (hstep _)).symm
  rw [hgaps, scan_digits run.isDigit]

end DigitRun

/-! ## Exponents and fractions -/

theorem ExponentLiteral.scan (hunit : t.unit = []) (e : ExponentLiteral) (rest : List Char) :
    t.scan (e.layout DigitRun.text ++ rest) =
      ({ t.advance (e.layout DigitRun.digits) 0 0 with exponent := true } :
        DigitToken).scan rest := by
  let marked (cs : List Char) : DigitToken := { t.advance cs 0 0 with exponent := true }
  have hunit' (cs : List Char) : (marked cs).unit = [] := (unit_advance_eq_nil t cs 0 0).2 hunit
  have hmarked (as bs : List Char) : (marked as).advance bs 0 0 = marked (as ++ bs) := by
    simp [marked, advance, hunit]
  have hletter (behind : List Char) (hnext : nextIsDigit behind.head? = true ∨
      behind.head? = some '+' ∨ behind.head? = some '-') :
      t.scan (e.letter :: behind) = (marked [e.letter]).scan behind := by
    apply scan_cons
    unfold ExponentLiteral.letter
    split
    · simp [step?, hunit, hnext, marked, push_eq_advance]
    · simp [step?, hunit, hnext, marked, push_eq_advance]
  have hsign (minus : Bool) (cs behind : List Char) :
      (marked cs).scan (signChar minus :: behind) =
        (marked (cs ++ [signChar minus])).scan behind := by
    apply scan_cons
    rw [← hmarked]
    cases minus with
    | true => rfl
    | false => rfl
  obtain ⟨capital, sign, run⟩ := e
  cases sign with
  | none =>
    show t.scan (_ :: (run.text ++ rest)) = (marked (_ :: run.digits)).scan rest
    rw [hletter _ (.inl (run.nextIsDigit_text rest)), run.scan (hunit' _), hmarked]
    rfl
  | some minus =>
    show t.scan (_ :: signChar minus :: (run.text ++ rest)) =
      (marked (_ :: signChar minus :: run.digits)).scan rest
    have hnext : (signChar minus :: (run.text ++ rest)).head? = some '+' ∨
        (signChar minus :: (run.text ++ rest)).head? = some '-' := by
      cases minus with
      | true => exact .inr rfl
      | false => exact .inl rfl
    rw [hletter _ (.inr hnext), hsign, run.scan (hunit' _), hmarked]
    rfl

namespace NumberLiteral

variable (n : NumberLiteral)

/-- A literal is taken without its underscores. -/
theorem scan (hunit : t.unit = []) (rest : List Char) :
    t.scan (n.unsignedLayout DigitRun.text ++ rest) =
      ({ t.advance (n.unsignedLayout DigitRun.digits) 0 0 with
          exponent := t.exponent || n.exponent.isSome } : DigitToken).scan rest := by
  obtain ⟨negative, whole, fraction, exponent⟩ := n
  have hfraction (cs behind : List Char) :
      (t.advance cs 0 0).scan ((fraction.elim [] fun run => '.' :: run.text) ++ behind) =
        (t.advance (cs ++ fraction.elim [] fun run => '.' :: run.digits) 0 0).scan behind := by
    cases fraction with
    | none => rw [Option.elim_none, Option.elim_none, List.append_nil, List.nil_append]
    | some run =>
      rw [Option.elim_some, Option.elim_some, List.cons_append, scan_point (run.nextIsDigit_text _),
        advance_advance, run.scan (by simpa using hunit), advance_advance, List.append_assoc]
      rfl
  unfold unsignedLayout
  simp only [List.append_assoc]
  rw [whole.scan hunit, hfraction]
  cases exponent with
  | none => simp [advance, hunit]
  | some e =>
    simp only [Option.elim_some]
    rw [e.scan (by simpa using hunit)]
    simp [advance, hunit]

theorem exists_cons : ∃ c cs, n.unsignedLayout DigitRun.text = c :: cs ∧ c.isDigit = true := by
  obtain ⟨c, cs, htext, hc⟩ := n.whole.exists_cons
  unfold unsignedLayout
  rw [htext]
  exact ⟨c, _, rfl, hc⟩

end NumberLiteral

/-! ## The decimal of a literal -/

namespace ExponentLiteral

theorem readExponent?_eq (e : ExponentLiteral) :
    Decimal.readExponent? (e.signText ++ e.run.digits) = some e.value := by
  obtain ⟨capital, sign, run⟩ := e
  have hall : run.digits.all Char.isDigit = true := List.all_eq_true.2 run.isDigit
  cases sign with
  | some minus =>
    cases minus with
    | true => simp [Decimal.readExponent?, signText, signChar, value, run.nonempty, hall]
    | false => simp [Decimal.readExponent?, signText, signChar, value, run.nonempty, hall]
  | none =>
    obtain ⟨c, digits, hdigits⟩ := List.exists_cons_of_ne_nil run.nonempty
    have hc := run.isDigit c (hdigits ▸ List.mem_cons_self)
    have hminus : c ≠ '-' := by
      rintro rfl
      exact absurd hc (by decide)
    have hplus : c ≠ '+' := by
      rintro rfl
      exact absurd hc (by decide)
    rw [hdigits] at hall
    simp [Decimal.readExponent?, signText, value, hdigits, hminus, hplus, hall]

theorem letter_eq (e : ExponentLiteral) : e.letter = 'e' ∨ e.letter = 'E' := by
  unfold letter
  split
  · exact .inr rfl
  · exact .inl rfl

end ExponentLiteral

namespace NumberLiteral

variable (n : NumberLiteral)

/-- The digits in front of an exponent end with it. -/
theorem stops_exponent :
    Stops Char.isDigit (n.exponent.elim [] (ExponentLiteral.layout DigitRun.digits)) := by
  cases n.exponent with
  | none => exact Stops.nil
  | some e =>
    apply Stops.cons
    rcases e.letter_eq with h | h
    · rw [h]; rfl
    · rw [h]; rfl

theorem fractionDigits_eq (tail : List Char) (hstops : Stops Char.isDigit tail)
    (hpoint : ∀ cs, tail ≠ '.' :: cs) :
    Decimal.fractionDigits ((n.fraction.elim [] fun run => '.' :: run.digits) ++ tail) =
      (n.fractionDigits, tail) := by
  unfold fractionDigits
  cases n.fraction with
  | none =>
    show Decimal.fractionDigits tail = ([], tail)
    unfold Decimal.fractionDigits
    split
    · exact absurd rfl (hpoint _)
    · rfl
  | some run =>
    show ((run.digits ++ tail).takeWhile _, (run.digits ++ tail).dropWhile _) = (run.digits, tail)
    rw [Stops.takeWhile_append run.isDigit hstops, Stops.dropWhile_append run.isDigit hstops]

theorem read?_unsigned : Decimal.read? (n.unsignedLayout DigitRun.digits) = some n.decimal := by
  have htail := n.stops_exponent
  have hpoint : ∀ cs, n.exponent.elim [] (ExponentLiteral.layout DigitRun.digits) ≠ '.' :: cs := by
    intro cs h
    cases hexp : n.exponent with
    | none =>
      rw [hexp] at h
      cases h
    | some e =>
      rw [hexp] at h
      have hletter : e.letter = '.' := (List.cons.inj h).1
      rcases e.letter_eq with he | he
      · rw [he] at hletter
        exact absurd hletter (by decide)
      · rw [he] at hletter
        exact absurd hletter (by decide)
  have hfraction := n.fractionDigits_eq _ htail hpoint
  have hstops : Stops Char.isDigit ((n.fraction.elim [] fun run => '.' :: run.digits) ++
      n.exponent.elim [] (ExponentLiteral.layout DigitRun.digits)) := by
    cases n.fraction with
    | none => exact htail
    | some run => exact Stops.cons rfl
  unfold Decimal.read? unsignedLayout
  rw [List.append_assoc, Stops.takeWhile_append n.whole.isDigit hstops,
    Stops.dropWhile_append n.whole.isDigit hstops, hfraction]
  simp only [n.whole.nonempty, false_and, if_false]
  unfold decimal
  cases n.exponent with
  | none => simp
  | some e =>
    show (if e.letter = 'e' ∨ e.letter = 'E' then
      (Decimal.readExponent? (e.signText ++ e.run.digits)).map _ else none) = _
    rw [if_pos e.letter_eq, e.readExponent?_eq]
    rfl

theorem read?_plain : Double.read? n.plain = some n.value := by
  have hsign : Double.splitSign n.plain = (n.negative, n.unsignedLayout DigitRun.digits) := by
    obtain ⟨c, digits, hdigits⟩ := List.exists_cons_of_ne_nil n.whole.nonempty
    have hc := n.whole.isDigit c (hdigits ▸ List.mem_cons_self)
    unfold plain layout unsignedLayout
    rw [hdigits, List.cons_append, List.cons_append]
    exact Double.splitSign_digit hc _ n.negative
  unfold Double.read? Double.readWith?
  rw [hsign]
  simp only [n.read?_unsigned]
  rfl

/-! ## Reading a literal -/

/-- The unit behind a literal as the unit of a number. -/
def unit? (unit : List Char) : Option String :=
  if unit = [] then none else some (String.ofList unit)

/-- What may stand behind a literal as its unit: nothing, or a unit that does not make a
hexadecimal number or another exponent of the literal. -/
structure Admits (n : NumberLiteral) (unit : List Char) : Prop where
  name : unit ≠ [] → isUnitName unit = true
  finite : unit ≠ [] → n.value.isFinite = true
  hexadecimal : ¬ (n.text = ['0'] ∧ ['x'] <+: unit)
  exponent : ¬ ['e', '-'] <+: unit ∧ ¬ ['E', '-'] <+: unit

variable {n}

/-- The number that a literal with a unit names. -/
def number (n : NumberLiteral) (unit : List Char) (h : n.Admits unit) : Number where
  value := n.value
  unit := unit? unit
  valid := by
    intro u hu
    unfold unit? at hu
    split at hu
    · cases hu
    · rename_i hne
      cases hu
      rw [String.toList_ofList]
      exact ⟨h.name hne, h.finite hne⟩

/-- A token that took a literal and its unit names the number. -/
theorem examineNumber_eq (h : n.Admits unit) (hbody : t.body = n.plain) (hunit : t.unit = unit) :
    examineNumber t = .ok (n.number unit h) := by
  unfold examineNumber
  rw [hbody, n.read?_plain, hunit]
  simp only
  split
  · rename_i hempty
    simp [number, Number.plain, unit?, hempty]
  · rename_i hne
    have hname := h.name hne
    have hfinite := h.finite hne
    rw [← String.toList_ofList (l := unit)] at hname
    rw [Number.withUnit?, dif_pos hname, dif_pos hfinite]
    simp [number, unit?, hne, Except.mapError]

theorem skipBlanks_text (n : NumberLiteral) (unit : List Char) :
    skipBlanks (n.text ++ unit) = n.text ++ unit := by
  obtain ⟨c, cs, htext, hc⟩ := n.exists_cons
  have hdigit := isDigit_iff.1 hc
  unfold text layout
  rw [htext]
  cases n.negative with
  | true => exact skipBlanks_cons _ (by decide)
  | false => exact skipBlanks_cons _ (isBlank_eq_false (by omega) (by omega))

/-- No unit starts like an exponent or with what makes a zero a hexadecimal number. -/
theorem scan_unit (h : n.Admits unit) (hunit : t.unit = []) (hrest : Follows rest) :
    t.scan (unit ++ rest) = ({ t with unit := unit }, rest) := by
  have hstart {mark : List Char} (hnot : ¬ mark <+: unit) : mark.isPrefixOf unit = false := by
    rwa [Bool.eq_false_iff, ne_eq, List.isPrefixOf_iff_prefix]
  by_cases hempty : unit = []
  · subst hempty
    rw [List.nil_append, scan_follows hrest, ← hunit]
  · exact scan_unit_text hunit (h.name hempty) (hstart h.exponent.1) (hstart h.exponent.2) hrest

theorem readToken_literal (h : n.Admits unit) (hstart : t = initial ∨ t = start '-')
    (hsign : t.body = if n.negative then ['-'] else []) (hrest : Follows rest) :
    readToken (t.scan (n.unsignedLayout DigitRun.text ++ (unit ++ rest))).1
      (t.scan (n.unsignedLayout DigitRun.text ++ (unit ++ rest))).2 =
        ok (.number (n.number unit h)) rest := by
  have hcounts : t.unit = [] ∧ t.dashes = 0 ∧ t.colons = 0 := by
    rcases hstart with rfl | rfl
    · exact ⟨rfl, rfl, rfl⟩
    · exact ⟨rfl, rfl, rfl⟩
  obtain ⟨hunit, hdashes, hcolons⟩ := hcounts
  rw [n.scan hunit, scan_unit h (by simpa using hunit) hrest,
    readToken_number (by simp [hdashes]) (by simp [hcolons]),
    examineNumber_eq h (by simp [advance, hunit, hsign, plain, layout]) rfl]
  rfl

theorem x_not_mem_text : 'x' ∉ n.text := by
  have hrun (run : DigitRun) : 'x' ∉ run.text := by
    intro hx
    rcases run.mem_text hx with hdigit | hgap
    · exact absurd hdigit (by decide)
    · exact absurd hgap (by decide)
  have hsign (minus : Bool) : 'x' ≠ signChar minus := by cases minus <;> decide
  have hexponent (e : ExponentLiteral) : 'x' ∉ e.layout DigitRun.text := by
    have hletter : 'x' ≠ e.letter := by
      rcases e.letter_eq with h | h
      · rw [h]; decide
      · rw [h]; decide
    cases hsigned : e.sign with
    | none => simp [ExponentLiteral.layout, ExponentLiteral.signText, hsigned, hletter, hrun]
    | some minus =>
      simp [ExponentLiteral.layout, ExponentLiteral.signText, hsigned, hletter, hsign, hrun]
  obtain ⟨negative, whole, fraction, exponent⟩ := n
  cases negative <;> cases fraction <;> cases exponent <;>
    simp [text, layout, unsignedLayout, hrun, hexponent]

/-- A literal that starts with a zero does not go on like a hexadecimal number. -/
theorem second_ne (h : n.Admits unit) (hrest : Follows rest) {cs : List Char}
    (htext : n.text = '0' :: cs) : (cs ++ (unit ++ rest)).head? ≠ some 'x' := by
  intro hx
  cases cs with
  | cons d cs =>
    obtain rfl : d = 'x' := Option.some.inj hx
    exact x_not_mem_text (htext ▸ List.mem_cons_of_mem _ List.mem_cons_self)
  | nil =>
    cases unit with
    | cons d unit =>
      obtain rfl : d = 'x' := Option.some.inj hx
      exact h.hexadecimal ⟨htext, unit, rfl⟩
    | nil =>
      cases rest with
      | nil => cases hx
      | cons d rest =>
        obtain rfl : d = 'x' := Option.some.inj hx
        exact absurd hrest.1 (by decide)

/-- A literal with its unit is read up to its end, wherever a value can stand. -/
theorem readValue_literal (h : n.Admits unit) (setting : Setting) (hrest : Follows rest) :
    readValue setting (n.text ++ (unit ++ rest)) = ok (some (.number (n.number unit h))) rest := by
  obtain ⟨c, cs, htext, hc⟩ := n.exists_cons
  have hsign : n.text = (if n.negative then ['-'] else []) ++ c :: cs := by rw [← htext]; rfl
  cases hnegative : n.negative with
  | true =>
    have hread := readToken_literal (t := start '-') h (.inr rfl) (by rw [hnegative]; rfl) hrest
    rw [htext, List.cons_append] at hread
    rw [hsign, hnegative]
    show readValue setting ('-' :: c :: (cs ++ (unit ++ rest))) = _
    rw [readValue_dash, readNegative_digit hc]
    exact congrArg (Outcome.map some) hread
  | false =>
    have hread := readToken_literal (t := initial) h (.inl rfl) (by rw [hnegative]; rfl) hrest
    rw [hnegative] at hsign
    rw [htext, List.cons_append] at hread
    rw [hsign]
    show readValue setting (c :: (cs ++ (unit ++ rest))) = _
    have hx : c = '0' → (cs ++ (unit ++ rest)).head? ≠ some 'x' := by
      rintro rfl
      exact second_ne h hrest hsign
    rw [readValue_digit hc, readDigitLiteral_cons hc hx, hread]
    rfl

end NumberLiteral

/-- Every number literal, with underscores between its digits, with a fraction, an exponent or
a unit or without, is read completely: its value is the double that the text without the
underscores is read as, which is the one nearest to its decimal, and its unit is all the text
behind. -/
theorem number_literals_are_read (n : NumberLiteral) (unit : List Char) (h : n.Admits unit) :
    toValue? (String.ofList (n.text ++ unit)) = .ok (some (.number (n.number unit h))) ∧
      Double.read? n.plain = some (n.number unit h).value ∧
      (n.number unit h).value = n.decimal.toDouble n.negative ∧
      (n.number unit h).unit = if unit = [] then none else some (String.ofList unit) := by
  refine ⟨?_, n.read?_plain, rfl, rfl⟩
  have hread := NumberLiteral.readValue_literal h .data Follows.nil
  rw [List.append_nil] at hread
  exact toValue?_of_readValue (n.skipBlanks_text unit) hread

/-- Twelve and a half thousand below zero. -/
def sampleLiteral : NumberLiteral where
  negative := true
  whole :=
    ⟨['1', '_', '2'], ['1', '2'], .gap rfl rfl (.keep _ .nil), by decide, List.all_eq_true.1 rfl⟩
  fraction := some ⟨['5'], ['5'], .keep _ .nil, by decide, List.all_eq_true.1 rfl⟩
  exponent := some
    ⟨false, some false,
      ⟨['0', '_', '3'], ['0', '3'], .gap rfl rfl (.keep _ .nil), by decide,
        List.all_eq_true.1 rfl⟩⟩

theorem sampleLiteral_is_read :
    sampleLiteral.Admits "kW-h".toList ∧
      ∃ number : Number, toValue? "-1_2.5e+0_3kW-h" = .ok (some (.number number)) ∧
        number.value = .ofInt (-12500) ∧ number.unit = some "kW-h" := by
  have hadmits : sampleLiteral.Admits "kW-h".toList :=
    ⟨fun _ => by decide, fun _ => by decide +kernel, by decide, by decide⟩
  obtain ⟨hread, -, hvalue, hunit⟩ := number_literals_are_read sampleLiteral _ hadmits
  refine ⟨hadmits, _, hread, ?_, hunit⟩
  rw [hvalue]
  decide +kernel

end TagGrid.Zinc
