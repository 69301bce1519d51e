import Mathlib.Algebra.Group.Nat.Defs
import TagGrid.Zinc.TemporalReader

/-! # Digits

A number written in decimal, padded or not, consists of digits and has its value when
the digits are read again.
-/

namespace TagGrid.Text

theorem isDigit_iff {c : Char} : c.isDigit = true ↔ 48 ≤ c.toNat ∧ c.toNat ≤ 57 := by
  simp only [Char.isDigit, Bool.and_eq_true, decide_eq_true_eq, ge_iff_le, UInt32.le_iff_toNat_le]
  rfl

theorem isUpper_iff {c : Char} : c.isUpper = true ↔ 65 ≤ c.toNat ∧ c.toNat ≤ 90 := by
  unfold Char.isUpper
  simp only [decide_eq_true_eq, ge_iff_le, UInt32.le_iff_toNat_le]
  rfl

theorem isLower_iff {c : Char} : c.isLower = true ↔ 97 ≤ c.toNat ∧ c.toNat ≤ 122 := by
  unfold Char.isLower
  simp only [Bool.and_eq_true, decide_eq_true_eq, ge_iff_le, UInt32.le_iff_toNat_le]
  rfl

theorem isAlpha_iff {c : Char} :
    c.isAlpha = true ↔ (65 ≤ c.toNat ∧ c.toNat ≤ 90) ∨ (97 ≤ c.toNat ∧ c.toNat ≤ 122) := by
  unfold Char.isAlpha
  rw [Bool.or_eq_true, isUpper_iff, isLower_iff]

theorem isAlpha_of_isUpper {c : Char} (h : c.isUpper = true) : c.isAlpha = true := by
  rw [isUpper_iff] at h
  rw [isAlpha_iff]
  exact .inl h

theorem isAlpha_of_isLower {c : Char} (h : c.isLower = true) : c.isAlpha = true := by
  rw [isLower_iff] at h
  rw [isAlpha_iff]
  exact .inr h

theorem isNameChar_of_isAlpha {c : Char} (h : c.isAlpha = true) : isNameChar c = true := by
  simp [isNameChar, Char.isAlphanum, h]

theorem toNat_lt_of_isDigit {c : Char} (h : c.isDigit = true) : c.toNat < 128 := by
  have := isDigit_iff.1 h
  omega

/-- The characters of ASCII that leave a mark on the page are no white space. -/
theorem isBlank_eq_false {c : Char} (hlow : 32 < c.toNat) (hhigh : c.toNat < 127) :
    isBlank c = false := by
  simp only [isBlank, blankRanges, List.any_cons, List.any_nil, Bool.or_false,
    Bool.or_eq_false_iff, Bool.and_eq_false_iff, decide_eq_false_iff_not]
  omega

theorem isBlank_of_isNameChar {c : Char} (h : isNameChar c = true) : isBlank c = false := by
  simp only [isNameChar, Char.isAlphanum, Bool.or_eq_true, isAlpha_iff, isDigit_iff,
    beq_iff_eq] at h
  rcases h with (halpha | hdigit) | rfl
  · exact isBlank_eq_false (by omega) (by omega)
  · exact isBlank_eq_false (by omega) (by omega)
  · decide

theorem isSpace_eq_false {c : Char} (hlow : 32 < c.toNat) (hhigh : c.toNat < 127) :
    isSpace c = false := by
  rw [Bool.eq_false_iff]
  intro hspace
  have hblank := isBlank_of_isSpace hspace
  rw [isBlank_eq_false hlow hhigh] at hblank
  cases hblank

/-- The decimal digits of a number are digits. -/
theorem isDigit_of_mem_toDigits {n : Nat} : ∀ c ∈ Nat.toDigits 10 n, c.isDigit = true :=
  fun _ hc => Nat.isDigit_of_mem_toDigits (by decide) (by decide) hc

theorem isDigit_of_mem_decimalPadded {width n : Nat} :
    ∀ c ∈ decimalPadded width n, c.isDigit = true := by
  intro c hc
  rcases List.mem_append.1 hc with hc | hc
  · rw [List.eq_of_mem_replicate hc]
    rfl
  · exact isDigit_of_mem_toDigits c hc

/-- A number that fits into its places takes exactly so many. -/
theorem length_decimalPadded {width n : Nat} (hwidth : 0 < width) (h : n < 10 ^ width) :
    (decimalPadded width n).length = width := by
  have hlen : (Nat.toDigits 10 n).length ≤ width :=
    (Nat.length_toDigits_le_iff (by decide) hwidth).2 h
  unfold decimalPadded padZeros
  rw [List.length_append, List.length_replicate]
  omega

/-- Zeros in front do not change the value of digits. -/
theorem ofDigitChars_decimalPadded (width n : Nat) :
    Nat.ofDigitChars 10 (decimalPadded width n) 0 = n := by
  unfold decimalPadded padZeros
  rw [Nat.ofDigitChars_append, Nat.ofDigitChars_replicate_zero, Nat.mul_zero,
    Nat.ofDigitChars_ten_toDigits]

/-- So many digits write only the numbers below that power of ten. -/
theorem ofDigitChars_lt {cs : List Char} (h : ∀ c ∈ cs, c.isDigit = true) :
    Nat.ofDigitChars 10 cs 0 < 10 ^ cs.length := by
  induction cs with
  | nil => simp
  | cons c cs ih =>
    have hc := isDigit_iff.1 (h c List.mem_cons_self)
    have hcs := ih fun d hd => h d (List.mem_cons_of_mem _ hd)
    rw [Nat.ofDigitChars_cons, Nat.ofDigitChars_eq_ofDigitChars_zero, List.length_cons]
    have hdigit : 10 * 0 + (c.toNat - '0'.toNat) ≤ 9 := by
      show 10 * 0 + (c.toNat - 48) ≤ 9
      omega
    calc 10 ^ cs.length * (10 * 0 + (c.toNat - '0'.toNat)) + Nat.ofDigitChars 10 cs 0
        < 10 ^ cs.length * 9 + 10 ^ cs.length :=
          Nat.add_lt_add_of_le_of_lt (Nat.mul_le_mul_left _ hdigit) hcs
      _ = 10 ^ (cs.length + 1) := by rw [Nat.pow_succ]; omega

theorem decimalPadded_ne_nil (width n : Nat) : decimalPadded width n ≠ [] := by
  unfold decimalPadded padZeros
  simp [Nat.toDigits_ne_nil]

end TagGrid.Text

namespace TagGrid.Zinc

open Text

/-- A padded number is read as itself. -/
theorem digits?_decimalPadded (width n : Nat) : digits? (decimalPadded width n) = some n := by
  have hall : (decimalPadded width n).all Char.isDigit = true :=
    List.all_eq_true.2 isDigit_of_mem_decimalPadded
  simp only [digits?, hall, decimalPadded_ne_nil, ne_eq, not_false_eq_true, and_self, if_true,
    ofDigitChars_decimalPadded]

end TagGrid.Zinc
