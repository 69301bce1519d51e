import Mathlib.Data.Rat.Cast.Order
import Mathlib.Tactic.FieldSimp
import TagGrid.Proofs.Value.Degrees
import TagGrid.Proofs.Value.Order

/-! # The texts of degrees

Millionths of a degree are written as a decimal with nothing to spare, and the number that the
decimal stands for, before it is rounded to a double, is exactly what was written. So no two
angles share a text, and places that compare equal by their texts are equal.
-/

namespace TagGrid

open Text

/-- The number that a decimal stands for. -/
def Decimal.toRat (d : Decimal) : ℚ := d.coefficient * 10 ^ d.exponent

/-- The number of a decimal text with a sign, which is not rounded. -/
def Double.readExact? (cs : List Char) : Option ℚ :=
  let (negative, body) := Double.splitSign cs
  (Decimal.read? body).map fun d => if negative then -d.toRat else d.toRat

/-- The digits before and behind the point of a decimal with nothing to spare: a zero in front
stands alone, and there are at most six digits behind the point, the last one not a zero. -/
structure ShortDecimal (whole fraction : List Char) : Prop where
  whole_ne_nil : whole ≠ []
  whole_digits : ∀ c ∈ whole, c.isDigit = true
  whole_zero : whole.head? = some '0' → whole = ['0']
  fraction_digits : ∀ c ∈ fraction, c.isDigit = true
  fraction_length : fraction.length ≤ 6
  fraction_zero : fraction.getLast? ≠ some '0'

/-- So many places behind the point stand for just as many millionths. -/
theorem Decimal.toRat_millionths {coefficient places micro : Nat} (hplaces : places ≤ 6)
    (hmicro : coefficient * 10 ^ (6 - places) = micro) :
    Decimal.toRat ⟨coefficient, -(places : Int)⟩ = (micro : ℚ) / 10 ^ 6 := by
  have hsplit : (10 : ℚ) ^ 6 = 10 ^ (6 - places) * 10 ^ places := by
    rw [← pow_add, Nat.sub_add_cancel hplaces]
  unfold Decimal.toRat
  rw [← hmicro, hsplit, zpow_neg, zpow_natCast]
  push_cast
  field_simp

/-- Digits that start with a zero write a number that needs fewer of them. -/
theorem eq_zero_of_head?_toDigits {n : Nat} (h : (Nat.toDigits 10 n).head? = some '0') :
    Nat.toDigits 10 n = ['0'] := by
  obtain ⟨ds, hds⟩ := List.head?_eq_some_iff.1 h
  by_cases hnil : ds = []
  · rw [hds, hnil]
  · have hdigits : ∀ c ∈ ds, c.isDigit = true := by
      intro c hc
      apply isDigit_of_mem_toDigits (n := n)
      rw [hds]
      exact List.mem_cons_of_mem _ hc
    have hvalue : Nat.ofDigitChars 10 ds 0 = n := by
      rw [← Nat.ofDigitChars_ten_toDigits (n := n), hds]
      rfl
    have hlt := ofDigitChars_lt hdigits
    have hlen := (Nat.length_toDigits_le_iff (by decide) (List.length_pos_iff.2 hnil)).2
      (hvalue ▸ hlt)
    rw [hds, List.length_cons] at hlen
    omega

namespace Coord

theorem getLast?_trimZeros (ds : List Char) : (trimZeros ds).getLast? ≠ some '0' := by
  intro h
  unfold trimZeros at h
  rw [List.getLast?_reverse] at h
  have hstop := List.head?_dropWhile_not (· == '0') ds.reverse
  rw [h] at hstop
  exact absurd hstop (by decide)

/-- Text without a sign is a decimal with nothing to spare. -/
theorem exists_shortDecimal (micro : Nat) : ∃ whole fraction, ShortDecimal whole fraction ∧
    unsignedText micro = whole ++ if fraction = [] then [] else '.' :: fraction := by
  have hne : Nat.toDigits 10 (micro / 1000000) ≠ [] := Nat.toDigits_ne_nil
  have hwhole := isDigit_of_mem_toDigits (n := micro / 1000000)
  unfold unsignedText
  by_cases hfrac : micro % 1000000 = 0
  · refine ⟨Nat.toDigits 10 (micro / 1000000), [], ?_, ?_⟩
    · exact ⟨hne, hwhole, eq_zero_of_head?_toDigits, by simp, by simp, by simp⟩
    · rw [if_pos hfrac, if_pos rfl]
  · obtain ⟨hfs, hdigits, zeros, hlen, -⟩ :=
      trimZeros_spec (Nat.pos_of_ne_zero hfrac) (Nat.mod_lt micro (by decide))
    refine ⟨Nat.toDigits 10 (micro / 1000000),
      trimZeros (decimalPadded 6 (micro % 1000000)), ?_, ?_⟩
    · exact ⟨hne, hwhole, eq_zero_of_head?_toDigits, hdigits, by omega, getLast?_trimZeros _⟩
    · rw [if_neg hfrac, if_neg hfs]

/-- A minus stands in front of the negative angles and nowhere else. -/
theorem minus_mem_microText_iff {micro : Int} : '-' ∈ microText micro ↔ micro < 0 := by
  have hplain : '-' ∉ unsignedText micro.natAbs := by
    intro hmem
    rcases (unsignedText_spec micro.natAbs).1.mem hmem with hdigit | hpoint
    · exact absurd hdigit (by decide)
    · exact absurd hpoint (by decide)
  rw [microText_eq, List.mem_append, or_iff_left hplain]
  by_cases hneg : micro < 0 <;> simp [hneg]

/-- Before it is rounded, the number that is read is the one that was written. -/
theorem readExact?_microText (micro : Int) :
    Double.readExact? (microText micro) = some ((micro : ℚ) / 10 ^ 6) := by
  obtain ⟨hplain, coefficient, places, hplaces, hvalue, hread⟩ := unsignedText_spec micro.natAbs
  have hsign := Double.splitSign_plain hplain (decide (micro < 0))
  simp only [decide_eq_true_eq] at hsign
  unfold Double.readExact?
  rw [microText_eq, hsign]
  simp only [hread, Option.map_some, Decimal.toRat_millionths hplaces hvalue, decide_eq_true_eq,
    Option.some.injEq]
  split
  · rw [← neg_div, ← Int.cast_natCast, ← Int.cast_neg, show -(micro.natAbs : Int) = micro by omega]
  · rw [← Int.cast_natCast, show (micro.natAbs : Int) = micro by omega]

theorem microText_injective : Function.Injective microText := by
  intro micro other h
  have hread := readExact?_microText micro
  rw [h, readExact?_microText other, Option.some.injEq] at hread
  field_simp at hread
  exact_mod_cast hread.symm

theorem pairText_injective : Function.Injective pairText := by
  intro c d h
  obtain ⟨hlat, -, hlng⟩ := (List.append_cons_inj_of_notMem (comma_not_mem_microText _)
    (comma_not_mem_microText _)).1 h
  cases c
  cases d
  obtain rfl := microText_injective hlat
  obtain rfl := microText_injective hlng
  rfl

theorem text_injective : Function.Injective text := by
  intro c d h
  exact pairText_injective (List.append_cancel_left (List.append_cancel_right h))

/-- Places compare equal only with themselves. -/
theorem compare?_eq_eq_iff {c d : Coord} :
    (Value.coord c).compare? (.coord d) = some .eq ↔ c = d := by
  rw [Value.compare?_eq_some_iff, Rank.compare_eq_iff, Value.rank_of_hasTextOrder rfl,
    Value.rank_of_hasTextOrder rfl]
  constructor
  · rintro ⟨-, hrank⟩
    have htext : String.ofList c.text = String.ofList d.text := congrArg Rank.text hrank
    exact text_injective (String.ofList_inj.1 htext)
  · rintro rfl
    exact ⟨Value.comparable_of_kind rfl nofun, rfl⟩

/-- The text of an angle is a decimal with nothing to spare, with a minus in front of it exactly
if the angle is negative, and stands for just that angle; so angles differ in their texts, and
places that compare equal are equal. -/
theorem microText_exact :
    (∀ micro : Int, ∃ whole fraction, ShortDecimal whole fraction ∧
      microText micro = (if micro < 0 then ['-'] else []) ++
        (whole ++ if fraction = [] then [] else '.' :: fraction)) ∧
    (∀ micro : Int, Double.readExact? (microText micro) = some ((micro : ℚ) / 10 ^ 6)) ∧
    (∀ micro : Int, '-' ∈ microText micro ↔ micro < 0) ∧
    (∀ micro other : Int, microText micro = microText other ↔ micro = other) ∧
    ∀ c d : Coord, (Value.coord c).compare? (.coord d) = some .eq ↔ c = d := by
  refine ⟨?_, readExact?_microText, fun _ => minus_mem_microText_iff,
    fun _ _ => microText_injective.eq_iff, fun _ _ => compare?_eq_eq_iff⟩
  intro micro
  obtain ⟨whole, fraction, hshort, htext⟩ := exists_shortDecimal micro.natAbs
  exact ⟨whole, fraction, hshort, by rw [microText_eq, htext]⟩

example : String.ofList (microText (-50000)) = "-0.05" := by decide

end Coord

end TagGrid
