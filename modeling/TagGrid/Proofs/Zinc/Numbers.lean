import TagGrid.Proofs.Zinc.DigitLiterals
import TagGrid.Proofs.Zinc.Safe

/-! # Reading numbers back

The text of a finite number is plain decimal, with the unit right behind it. The token
loop splits the two again where the unit starts, and both halves are read as what they
were.
-/

namespace TagGrid.Zinc

open Text Outcome DigitToken

variable {t : DigitToken} {c : Char} {cs unit rest : List Char}

theorem DigitToken.scan_plain (h : PlainText cs) (rest : List Char) :
    t.scan (cs ++ rest) = (t.advance cs 0 0).scan rest := by
  cases h with
  | whole _ digits => exact scan_digits digits rest
  | point _ digits some_fraction fraction =>
    rw [List.append_assoc, List.cons_append, scan_digits digits,
      scan_point (nextIsDigit_append some_fraction fraction rest), scan_digits fraction]
    simp only [advance_advance, List.append_assoc, List.cons_append, List.nil_append]

/-- What follows a unit character, or a value, is no digit and no plus sign. -/
theorem head?_unit_append (hunit : ∀ c ∈ unit, isUnitChar c = true) (hrest : Follows rest) :
    nextIsDigit (unit ++ rest).head? = false ∧ (unit ++ rest).head? ≠ some '+' := by
  cases unit with
  | cons c unit =>
    obtain ⟨hdigit, -, hplus, -⟩ := isUnitChar_spec (hunit c List.mem_cons_self)
    exact ⟨hdigit, fun h => hplus (Option.some.inj h)⟩
  | nil =>
    cases rest with
    | nil => exact ⟨rfl, nofun⟩
    | cons d rest =>
      have hdigit : Stops Char.isDigit (d :: rest) := hrest.stops (by decide)
      have hplus : Stops (· == '+') (d :: rest) := hrest.stops (by decide)
      refine ⟨hdigit d rfl, ?_⟩
      intro hhead
      obtain rfl : d = '+' := Option.some.inj hhead
      exact absurd (hplus '+' rfl) (by decide)

/-- A unit that starts like no exponent is taken as a unit, up to its end. -/
theorem DigitToken.scan_unit_text (hempty : t.unit = []) (hname : isUnitName unit = true)
    (hlower : ['e', '-'].isPrefixOf unit = false)
    (hupper : ['E', '-'].isPrefixOf unit = false) (hrest : Follows rest) :
    t.scan (unit ++ rest) = ({ t with unit := unit }, rest) := by
  cases unit with
  | nil => simp [isUnitName] at hname
  | cons c unit =>
    simp only [isUnitName, Bool.and_eq_true, bne_iff_ne, List.all_eq_true] at hname
    obtain ⟨⟨hdash, hstar⟩, hchars⟩ := hname
    have hchars' : ∀ d ∈ unit, isUnitChar d = true := fun d hd => hchars d (List.mem_cons_of_mem _ hd)
    obtain ⟨hnext, hplus⟩ := head?_unit_append hchars' hrest
    have hminus : c = 'e' ∨ c = 'E' → (unit ++ rest).head? ≠ some '-' := by
      intro hc hhead
      cases unit with
      | nil =>
        cases rest with
        | nil => cases hhead
        | cons d rest =>
          obtain rfl : d = '-' := Option.some.inj hhead
          exact absurd hrest.1 (by decide)
      | cons d unit =>
        obtain rfl : d = '-' := Option.some.inj hhead
        rcases hc with rfl | rfl
        · simp [List.isPrefixOf] at hlower
        · simp [List.isPrefixOf] at hupper
    rw [List.cons_append, scan_unit_start hempty (hchars c List.mem_cons_self) hdash hstar
      hnext fun hc => ⟨hplus, hminus hc⟩, scan_unit (by simp [pushUnit]) hchars',
      scan_follows hrest]
    simp [advance, pushUnit, hempty]

/-- The unit of a number as it stands behind the value. -/
def unitText (n : Number) : List Char :=
  match n.unit with
  | some unit => unit.toList
  | none => []

theorem DigitToken.scan_number {n : Number} (hempty : t.unit = []) (hsafe : n.zincSafe = true)
    (hplain : PlainText cs) (hrest : Follows rest) :
    t.scan (cs ++ (unitText n ++ rest)) = ({ t.advance cs 0 0 with unit := unitText n }, rest) := by
  rw [scan_plain hplain]
  obtain ⟨value, unit, valid⟩ := n
  cases unit with
  | none =>
    show (t.advance cs 0 0).scan rest = _
    rw [scan_follows hrest]
    simp [unitText, advance, hempty]
  | some unit =>
    simp only [Number.zincSafe, Bool.and_eq_true, Bool.not_eq_true'] at hsafe
    obtain ⟨⟨-, hlower⟩, hupper⟩ := hsafe
    exact scan_unit_text (by simp [hempty]) (valid unit rfl).1 hlower hupper hrest

/-- A token with the text of a number and its unit is that number. -/
theorem examineNumber_eq {n : Number} (hbody : t.body = n.value.text) (hunit : t.unit = unitText n) :
    examineNumber t = .ok n := by
  obtain ⟨value, unit, valid⟩ := n
  unfold examineNumber
  rw [hbody, hunit, Double.read?_text]
  cases unit with
  | none => rfl
  | some unit =>
    obtain ⟨hname, hfinite⟩ := valid unit rfl
    have hne : unit.toList ≠ [] := by
      intro hnil
      rw [hnil] at hname
      cases hname
    simp only [unitText, hne, if_false, String.ofList_toList, Number.withUnit?]
    rw [dif_pos hname, dif_pos hfinite]
    rfl

theorem readToken_number_text {n : Number} (hempty : t = initial ∨ t = start '-')
    (hvalue : n.value.text = t.body ++ cs) (hplain : PlainText cs) (hsafe : n.zincSafe = true)
    (hrest : Follows rest) :
    readToken (t.scan (cs ++ (unitText n ++ rest))).1 (t.scan (cs ++ (unitText n ++ rest))).2 =
      ok (.number n) rest := by
  have hstart : t.unit = [] ∧ t.dashes = 0 ∧ t.colons = 0 := by
    rcases hempty with rfl | rfl
    · exact ⟨rfl, rfl, rfl⟩
    · exact ⟨rfl, rfl, rfl⟩
  obtain ⟨hunit, hdashes, hcolons⟩ := hstart
  rw [scan_number hunit hsafe hplain hrest,
    readToken_number (by simp [hdashes]) (by simp [hcolons]),
    examineNumber_eq (n := n) (by simp [advance, hunit, hvalue]) rfl]
  rfl

/-- The only number whose text is the digit zero alone is the positive zero. -/
theorem eq_zero_of_text {x : Double} (h : x.text = ['0']) : x = .zero false := by
  have hread : Double.read? ['0'] = some x := h ▸ x.read?_text
  have hzero : Double.read? ['0'] = some (.zero false) := rfl
  exact Option.some.inj (hread.symm.trans hzero)

/-- The second character of plain text is a digit or the point. -/
theorem second_ne_of_plainText (h : PlainText (c :: cs)) : cs.head? ≠ some 'x' := by
  intro hx
  generalize hcs : c :: cs = text at h
  cases h with
  | whole _ digits =>
    subst hcs
    have := digits 'x' (List.mem_cons_of_mem _ (List.mem_of_mem_head? hx))
    exact absurd this (by decide)
  | @point ds fs nonempty digits _ _ =>
    cases ds with
    | nil => exact nonempty rfl
    | cons d ds =>
      obtain ⟨rfl, rfl⟩ := List.cons.inj hcs
      cases ds with
      | nil => exact absurd (Option.some.inj hx) (by decide)
      | cons e ds =>
        obtain rfl : e = 'x' := Option.some.inj hx
        exact absurd (digits 'x' (by simp)) (by decide)

/-- A safe number is not followed by what makes a zero a hexadecimal number. -/
theorem head?_zero_unit {n : Number} (hzero : n.value.text = ['0']) (hsafe : n.zincSafe = true)
    (hrest : Follows rest) : (unitText n ++ rest).head? ≠ some 'x' := by
  intro hx
  obtain ⟨value, unit, valid⟩ := n
  obtain rfl := eq_zero_of_text hzero
  cases unit with
  | none =>
    cases rest with
    | nil => cases hx
    | cons d rest =>
      obtain rfl : d = 'x' := Option.some.inj hx
      exact absurd hrest.1 (by decide)
  | some unit =>
    simp only [Number.zincSafe, beq_self_eq_true, Bool.true_and, Bool.and_eq_true,
      Bool.not_eq_true'] at hsafe
    simp only [unitText] at hx
    have hname := (valid unit rfl).1
    cases hcs : unit.toList with
    | nil => simp [hcs, isUnitName] at hname
    | cons d cs =>
      rw [hcs] at hx hsafe
      obtain rfl : d = 'x' := Option.some.inj hx
      simp [List.isPrefixOf] at hsafe

theorem readDigitLiteral_number {n : Number} {c : Char} (hvalue : n.value.text = c :: cs)
    (hplain : PlainText (c :: cs)) (hsafe : n.zincSafe = true) (hrest : Follows rest) :
    readDigitLiteral (c :: (cs ++ (unitText n ++ rest))) = ok (.number n) rest := by
  obtain ⟨d, ds, hcons, hdigit⟩ := hplain.exists_cons
  obtain ⟨rfl, rfl⟩ := List.cons.inj hcons
  have hx : c = '0' → (cs ++ (unitText n ++ rest)).head? ≠ some 'x' := by
    rintro rfl
    cases cs with
    | nil => exact head?_zero_unit hvalue hsafe hrest
    | cons d ds =>
      intro hx
      exact second_ne_of_plainText hplain hx
  rw [readDigitLiteral_cons hdigit hx]
  exact readToken_number_text (.inl rfl) hvalue hplain hsafe hrest

theorem readNegative_digit (hc : c.isDigit = true) (cs : List Char) :
    readNegative (c :: cs) = readDigitLiteral ('-' :: c :: cs) := by
  have hne : c ≠ 'I' := by
    rintro rfl
    exact absurd hc (by decide)
  unfold readNegative
  split
  · rename_i heq
    exact absurd (List.cons.inj heq).1 hne
  · rename_i heq
    obtain ⟨rfl, rfl⟩ := List.cons.inj heq
    rw [if_pos hc]
  · rename_i heq
    cases heq

theorem readNegative_number {n : Number} (hvalue : n.value.text = '-' :: cs)
    (hplain : PlainText cs) (hsafe : n.zincSafe = true) (hrest : Follows rest) :
    readNegative (cs ++ (unitText n ++ rest)) = ok (.number n) rest := by
  obtain ⟨d, ds, rfl, hdigit⟩ := hplain.exists_cons
  rw [List.cons_append, readNegative_digit hdigit, ← List.cons_append]
  exact readToken_number_text (.inr rfl) hvalue hplain hsafe hrest

end TagGrid.Zinc
