import Mathlib.Tactic.Ring
import TagGrid.Proofs.Double.ReadBack
import TagGrid.Value.Contents

/-! # Degrees written and read

Millionths of a degree are written as a decimal, read as the double nearest to it, and
multiplied by a million again. Two roundings lie between, each off by less than one part
in `2 ^ 53`, which is far below half a millionth for every angle on the globe.
-/

namespace TagGrid

open Text

namespace Coord

theorem exists_trimZeros_append (ds : List Char) :
    ∃ n, ds = trimZeros ds ++ List.replicate n '0' := by
  have hzeros : ∀ c ∈ ds.reverse.takeWhile (· == '0'), c = '0' := by
    intro c hc
    have hzero := List.all_eq_true.1 (List.all_takeWhile (p := (· == '0')) (l := ds.reverse)) c hc
    simpa using hzero
  refine ⟨(ds.reverse.takeWhile (· == '0')).length, ?_⟩
  calc
    ds = (ds.reverse.takeWhile (· == '0') ++ ds.reverse.dropWhile (· == '0')).reverse := by
      rw [List.takeWhile_append_dropWhile, List.reverse_reverse]
    _ = trimZeros ds ++ (ds.reverse.takeWhile (· == '0')).reverse := by
      rw [List.reverse_append]
      rfl
    _ = trimZeros ds ++ List.replicate (ds.reverse.takeWhile (· == '0')).length '0' := by
      rw [List.eq_replicate_iff.2 ⟨rfl, hzeros⟩, List.reverse_replicate, List.length_replicate]

/-- The text of so many millionths of a degree, without a sign. -/
def unsignedText (micro : Nat) : List Char :=
  Nat.toDigits 10 (micro / 1000000) ++
    (if micro % 1000000 = 0 then [] else '.' :: trimZeros (decimalPadded 6 (micro % 1000000)))

theorem microText_eq (micro : Int) :
    microText micro = (if micro < 0 then ['-'] else []) ++ unsignedText micro.natAbs := by
  unfold microText unsignedText
  rw [List.append_assoc]

/-- The six digits of a fraction without the zeros at their end. -/
theorem trimZeros_spec {n : Nat} (hpos : 0 < n) (hlt : n < 10 ^ 6) :
    trimZeros (decimalPadded 6 n) ≠ [] ∧ (∀ c ∈ trimZeros (decimalPadded 6 n), c.isDigit = true) ∧
      ∃ zeros, (trimZeros (decimalPadded 6 n)).length + zeros = 6 ∧
        Nat.ofDigitChars 10 (trimZeros (decimalPadded 6 n) ++ List.replicate zeros '0') 0 = n := by
  obtain ⟨zeros, hzeros⟩ := exists_trimZeros_append (decimalPadded 6 n)
  generalize trimZeros (decimalPadded 6 n) = fs at *
  have hlen : fs.length + zeros = 6 := by
    have hpad : (decimalPadded 6 n).length = 6 := length_decimalPadded (by decide) hlt
    rw [hzeros, List.length_append, List.length_replicate] at hpad
    exact hpad
  have hvalue : Nat.ofDigitChars 10 (fs ++ List.replicate zeros '0') 0 = n := by
    rw [← hzeros, ofDigitChars_decimalPadded]
  refine ⟨?_, ?_, zeros, hlen, hvalue⟩
  · rintro rfl
    rw [List.nil_append, Nat.ofDigitChars_replicate_zero] at hvalue
    omega
  · intro c hc
    have hmem : c ∈ decimalPadded 6 n := by
      rw [hzeros]
      exact List.mem_append_left _ hc
    exact isDigit_of_mem_decimalPadded c hmem

/-- The text is a decimal of at most six places with exactly the value written. -/
theorem unsignedText_spec (micro : Nat) :
    PlainText (unsignedText micro) ∧
      ∃ coefficient places : Nat, places ≤ 6 ∧ coefficient * 10 ^ (6 - places) = micro ∧
        Decimal.read? (unsignedText micro) = some ⟨coefficient, -(places : Int)⟩ := by
  have hne : Nat.toDigits 10 (micro / 1000000) ≠ [] := Nat.toDigits_ne_nil
  have hwhole := isDigit_of_mem_toDigits (n := micro / 1000000)
  unfold unsignedText
  by_cases hfrac : micro % 1000000 = 0
  · rw [if_pos hfrac, List.append_nil]
    refine ⟨.whole hne hwhole, micro / 1000000, 0, by omega, by omega, ?_⟩
    rw [Decimal.read?_digits hne hwhole]
    exact congrArg some (congrArg (Decimal.mk · 0) Nat.ofDigitChars_ten_toDigits)
  · rw [if_neg hfrac]
    obtain ⟨hfs, hdigits, zeros, hlen, hvalue⟩ :=
      trimZeros_spec (Nat.pos_of_ne_zero hfrac) (Nat.mod_lt micro (by decide))
    generalize trimZeros (decimalPadded 6 (micro % 1000000)) = fs at *
    refine ⟨.point hne hwhole hfs hdigits, Decimal.ofDigits (Nat.toDigits 10 (micro / 1000000) ++ fs),
      fs.length, by omega, ?_, Decimal.read?_point hne hwhole hdigits⟩
    -- With the zeros back in place the digits are those of all millionths.
    calc
      Decimal.ofDigits (Nat.toDigits 10 (micro / 1000000) ++ fs) * 10 ^ (6 - fs.length)
          = Nat.ofDigitChars 10
              (Nat.toDigits 10 (micro / 1000000) ++ (fs ++ List.replicate zeros '0')) 0 := by
        rw [← List.append_assoc, Nat.ofDigitChars_append,
          Nat.ofDigitChars_replicate_zero, show 6 - fs.length = zeros by omega, Nat.mul_comm]
        rfl
      _ = 10 ^ 6 * (micro / 1000000) + micro % 1000000 := by
        rw [Nat.ofDigitChars_append, Nat.ofDigitChars_ten_toDigits,
          Nat.ofDigitChars_eq_ofDigitChars_zero, hvalue, List.length_append,
          List.length_replicate, hlen]
      _ = micro := by omega

theorem mem_microText {micro : Int} {c : Char} (hc : c ∈ microText micro) :
    c.isDigit = true ∨ c = '.' ∨ c = '-' := by
  rw [microText_eq] at hc
  rcases List.mem_append.1 hc with hc | hc
  · split at hc
    · exact .inr (.inr (List.mem_singleton.1 hc))
    · simp at hc
  · obtain ⟨hplain, -⟩ := unsignedText_spec micro.natAbs
    exact (hplain.mem hc).imp_right .inl

theorem comma_not_mem_microText (micro : Int) : ',' ∉ microText micro := by
  intro hmem
  rcases mem_microText hmem with hdigit | hpoint | hminus
  · exact absurd hdigit (by decide)
  · exact absurd hpoint (by decide)
  · exact absurd hminus (by decide)

end Coord

namespace Double

/-- The integers up to `2 ^ 53` are stored as they are. -/
theorem storable_mul_grainsPerUnit {n : Nat} (h : n ≤ Nat.pow 2 53) :
    Storable (n * grainsPerUnit) := by
  have hprecision (s : Nat) : HasPrecision 53 (n * Nat.pow 2 s) :=
    hasPrecision_scaled s (by decide) h
  refine ⟨?_, hprecision 1074⟩
  unfold grainsPerUnit grainLimit
  calc
    n * Nat.pow 2 1074 ≤ Nat.pow 2 53 * Nat.pow 2 1074 := Nat.mul_le_mul_right _ h
    _ < Nat.pow 2 2098 := by decide +kernel

theorem ofNat_eq {n : Nat} (h : n ≤ Nat.pow 2 53) :
    ofNat n = .finite false (n * grainsPerUnit) (storable_mul_grainsPerUnit h) := by
  have hround := ofGrains_mul false (storable_mul_grainsPerUnit h) (by decide : 0 < 1)
  rw [Nat.mul_one] at hround
  exact hround

/-- There are far more grains in a millionth than a double has bits. -/
theorem grainsPerUnit_large : 2 ^ 100 ≤ grainsPerUnit := by
  unfold grainsPerUnit
  decide +kernel

theorem grainsPerUnit_mul_lt : 2 ^ 100 * grainsPerUnit < grainLimit := by
  unfold grainsPerUnit grainLimit
  decide +kernel

/-- A count of grains is the nearest one to so many millionths, or off by less than one
part in `2 ^ 53`. -/
structure NearMillionths (micro grains : Nat) : Prop where
  upper : grains * 1000000 * 2 ^ 53 ≤ micro * grainsPerUnit * (2 ^ 53 + 1)
  lower : micro * grainsPerUnit * 2 ^ 53 ≤ grains * 1000000 * 2 ^ 53 + micro * grainsPerUnit
  whole : ∀ units, units ≤ Nat.pow 2 53 → micro ≤ units * 1000000 → grains ≤ units * grainsPerUnit

/-- Rounding a decimal of at most six places to a double. -/
theorem nearMillionths_roundTo {coefficient places micro : Nat} (hplaces : places ≤ 6)
    (hmicro : coefficient * 10 ^ (6 - places) = micro) (hpos : 0 < coefficient) :
    NearMillionths micro (roundTo 53 (coefficient * grainsPerUnit) (10 ^ places)) := by
  have hten : 10 ^ places * 10 ^ (6 - places) = 1000000 := by
    rw [← Nat.pow_add, show places + (6 - places) = 6 by omega]
  have hden : 0 < 10 ^ places := Nat.pow_pos (by decide)
  have hscale : 0 < 10 ^ (6 - places) := Nat.pow_pos (by decide)
  have hgrains := grainsPerUnit_large
  have hbits : 2 ^ 52 * 10 ^ places ≤ coefficient * grainsPerUnit := by
    calc
      2 ^ 52 * 10 ^ places ≤ 2 ^ 52 * 10 ^ 6 :=
        Nat.mul_le_mul_left _ (Nat.pow_le_pow_right (by decide) hplaces)
      _ ≤ grainsPerUnit := by omega
      _ ≤ coefficient * grainsPerUnit := Nat.le_mul_of_pos_left _ hpos
  have hupper := roundTo_mul_le hden hbits
  have hlower := le_roundTo_mul hden hbits
  have hbound : ∀ units, units ≤ Nat.pow 2 53 → micro ≤ units * 1000000 →
      roundTo 53 (coefficient * grainsPerUnit) (10 ^ places) ≤ units * grainsPerUnit := by
    intro units hunits hle
    refine roundTo_le hden (storable_mul_grainsPerUnit hunits).2 ?_
    have hcoefficient : coefficient ≤ units * 10 ^ places := by
      rw [← hmicro, ← hten, ← Nat.mul_assoc] at hle
      exact Nat.le_of_mul_le_mul_right hle hscale
    calc
      coefficient * grainsPerUnit ≤ units * 10 ^ places * grainsPerUnit :=
        Nat.mul_le_mul_right _ hcoefficient
      _ = units * grainsPerUnit * 10 ^ places := by ring
  generalize roundTo 53 (coefficient * grainsPerUnit) (10 ^ places) = grains at *
  refine ⟨?_, ?_, hbound⟩
  · calc
      grains * 1000000 * 2 ^ 53 = grains * 10 ^ places * 2 ^ 53 * 10 ^ (6 - places) := by
        rw [← hten]
        ring
      _ ≤ coefficient * grainsPerUnit * (2 ^ 53 + 1) * 10 ^ (6 - places) :=
        Nat.mul_le_mul_right _ hupper
      _ = micro * grainsPerUnit * (2 ^ 53 + 1) := by
        rw [← hmicro]
        ring
  · calc
      micro * grainsPerUnit * 2 ^ 53
          = coefficient * grainsPerUnit * 2 ^ 53 * 10 ^ (6 - places) := by
        rw [← hmicro]
        ring
      _ ≤ (grains * 10 ^ places * 2 ^ 53 + coefficient * grainsPerUnit) * 10 ^ (6 - places) :=
        Nat.mul_le_mul_right _ hlower
      _ = grains * 1000000 * 2 ^ 53 + micro * grainsPerUnit := by
        rw [← hmicro, ← hten]
        ring

/-- A decimal of at most six places is read as a double near to it. -/
theorem exists_toDouble_eq {coefficient places micro : Nat} (hplaces : places ≤ 6)
    (hmicro : coefficient * 10 ^ (6 - places) = micro) (hangle : micro ≤ 180000000)
    (negative : Bool) :
    ∃ grains, ∃ h : Storable grains, NearMillionths micro grains ∧
      Decimal.toDouble negative ⟨coefficient, -(places : Int)⟩ = .finite negative grains h := by
  rcases Nat.eq_zero_or_pos coefficient with rfl | hpos
  · obtain rfl : 0 = micro := by simpa using hmicro
    exact ⟨0, storable_zero, ⟨by simp, by simp, by simp⟩, rfl⟩
  · have hnear := nearMillionths_roundTo hplaces hmicro hpos
    have hfits : roundTo 53 (coefficient * grainsPerUnit) (10 ^ places) < grainLimit := by
      have hle := hnear.whole 180 (by decide) (by omega)
      have hlimit := grainsPerUnit_mul_lt
      omega
    refine ⟨_, ⟨hfits, hasPrecision_roundTo _ _ (by decide)⟩, hnear, ?_⟩
    rw [Decimal.toDouble_eq_ofRatio (by simp only; omega) (by simp only; omega)
      (by simp only; omega)]
    unfold ofRatio ofGrains
    simp only [show (-(places : Int)).toNat = 0 by omega, Int.neg_neg, Int.toNat_natCast,
      Nat.pow_eq, Nat.pow_zero, Nat.mul_one, hfits, dif_pos]

end Double

namespace Coord

open Double

/-- The product with a million is off by less than one part in `2 ^ 53` again. -/
theorem roundTo_million {micro grains : Nat} (hnear : NearMillionths micro grains) :
    roundTo 53 (grains * (1000000 * grainsPerUnit)) grainsPerUnit * 2 ^ 53 ≤
        grains * 1000000 * (2 ^ 53 + 1) ∧
      grains * 1000000 * 2 ^ 53 ≤
        roundTo 53 (grains * (1000000 * grainsPerUnit)) grainsPerUnit * 2 ^ 53 +
          grains * 1000000 := by
  have hlarge := grainsPerUnit_large
  have hunit : 0 < grainsPerUnit := by omega
  rcases Nat.eq_zero_or_pos micro with hzero | hpos
  · have hgrains : grains = 0 := by
      have := hnear.whole 0 (by decide) (by omega)
      omega
    have hprecision : HasPrecision 53 0 := Nat.zero_mod _
    have hexact := roundTo_mul_of_hasPrecision hunit hprecision
    rw [Nat.zero_mul] at hexact
    rw [hgrains, Nat.zero_mul, hexact]
    simp
  · have hbits : 2 ^ 52 * grainsPerUnit ≤ grains * (1000000 * grainsPerUnit) := by
      have hsome : grainsPerUnit ≤ micro * grainsPerUnit := Nat.le_mul_of_pos_left _ hpos
      have hlower := hnear.lower
      have hmany : 2 ^ 52 ≤ grains * 1000000 := by omega
      rw [← Nat.mul_assoc]
      exact Nat.mul_le_mul_right _ hmany
    have hupper := roundTo_mul_le hunit hbits
    have hlower := le_roundTo_mul hunit hbits
    generalize roundTo 53 (grains * (1000000 * grainsPerUnit)) grainsPerUnit = product at *
    constructor
    · refine Nat.le_of_mul_le_mul_right ?_ hunit
      calc
        product * 2 ^ 53 * grainsPerUnit = product * grainsPerUnit * 2 ^ 53 := by ring
        _ ≤ grains * (1000000 * grainsPerUnit) * (2 ^ 53 + 1) := hupper
        _ = grains * 1000000 * (2 ^ 53 + 1) * grainsPerUnit := by ring
    · refine Nat.le_of_mul_le_mul_right ?_ hunit
      calc
        grains * 1000000 * 2 ^ 53 * grainsPerUnit
            = grains * (1000000 * grainsPerUnit) * 2 ^ 53 := by ring
        _ ≤ product * grainsPerUnit * 2 ^ 53 + grains * (1000000 * grainsPerUnit) := hlower
        _ = (product * 2 ^ 53 + grains * 1000000) * grainsPerUnit := by ring

/-- A million times a double near to so many millionths rounds to their number. -/
theorem microOfDegrees_of_near {micro grains : Nat} (hnear : NearMillionths micro grains)
    (hangle : micro ≤ 180000000) (negative : Bool) (h : Storable grains) :
    microOfDegrees (.finite negative grains h) = if negative then -(micro : Int) else micro := by
  have hlarge := grainsPerUnit_large
  have hlimit := grainsPerUnit_mul_lt
  obtain ⟨product, hproduct⟩ :
      ∃ product, product = roundTo 53 (grains * (1000000 * grainsPerUnit)) grainsPerUnit := ⟨_, rfl⟩
  obtain ⟨hupper, hlower⟩ := roundTo_million hnear
  rw [← hproduct] at hupper hlower
  have hnearUpper := hnear.upper
  have hnearLower := hnear.lower
  have htotal : micro * grainsPerUnit ≤ 180000000 * grainsPerUnit :=
    Nat.mul_le_mul_right _ hangle
  have hhalf : 2 * (micro * grainsPerUnit) ≤ 2 * product + grainsPerUnit ∧
      2 * product < 2 * (micro * grainsPerUnit) + grainsPerUnit := by
    generalize micro * grainsPerUnit = total at *
    omega
  have hfits : product < grainLimit := by omega
  have hnearest : (2 * product + grainsPerUnit) / (2 * grainsPerUnit) = micro := by
    have hsplit : micro * (2 * grainsPerUnit) = 2 * (micro * grainsPerUnit) := by ring
    have hnext : (micro + 1) * (2 * grainsPerUnit) =
        2 * (micro * grainsPerUnit) + 2 * grainsPerUnit := by ring
    refine Nat.div_eq_of_lt_le ?_ ?_ <;> omega
  have hmul : (Double.finite negative grains h).mul (Double.ofNat 1000000) =
      .finite negative product ⟨hfits, by rw [hproduct]; exact hasPrecision_roundTo _ _ (by decide)⟩ := by
    rw [ofNat_eq (by decide)]
    unfold Double.mul Double.ofGrains
    simp only [Bool.bne_false, ← hproduct, hfits, dif_pos]
  unfold microOfDegrees
  rw [hmul]
  simp only [roundToInt?, hnearest, Option.getD_some]

theorem inRange_of_near {micro grains units : Nat} (hnear : NearMillionths micro grains)
    (hunits : units ≤ 180) (hle : micro ≤ units * 1000000) (negative : Bool) (h : Storable grains) :
    Double.inRange (-(units : Int)) units (.finite negative grains h) = true := by
  have hgrains := hnear.whole units (Nat.le_trans hunits (by decide)) hle
  have hcast : (grains : Int) ≤ units * grainsPerUnit := by exact_mod_cast hgrains
  have hneg : -(units : Int) * grainsPerUnit = -(units * grainsPerUnit) := by ring
  unfold Double.inRange Double.place?
  simp only [Bool.and_eq_true, decide_eq_true_eq, hneg]
  generalize (units : Int) * grainsPerUnit = bound at *
  split <;> omega

/-- The text of an angle is read as a double that stands for just that many millionths. -/
theorem exists_read?_microText (micro : Int) (hangle : micro.natAbs ≤ 180000000) :
    ∃ x, Double.read? (microText micro) = some x ∧ microOfDegrees x = micro ∧
      ∀ units : Nat, units ≤ 180 → micro.natAbs ≤ units * 1000000 →
        Double.inRange (-(units : Int)) units x = true := by
  obtain ⟨hplain, coefficient, places, hplaces, hvalue, hread⟩ := unsignedText_spec micro.natAbs
  obtain ⟨grains, h, hnear, hdouble⟩ :=
    exists_toDouble_eq hplaces hvalue hangle (decide (micro < 0))
  refine ⟨.finite (decide (micro < 0)) grains h, ?_, ?_, ?_⟩
  · unfold Double.read? Double.readWith?
    have hsign := splitSign_plain hplain (decide (micro < 0))
    simp only [decide_eq_true_eq] at hsign
    rw [microText_eq, hsign]
    simp only [hread, hdouble]
  · rw [microOfDegrees_of_near hnear hangle]
    by_cases hneg : micro < 0
    · simp only [hneg, decide_true, if_true]
      omega
    · simp only [hneg, decide_false, Bool.false_eq_true, if_false]
      omega
  · intro units hunits hle
    exact inRange_of_near hnear hunits hle _ h

/-- Both texts of a coordinate together give the coordinate back. -/
theorem exists_ofDegrees?_eq (c : Coord) :
    ∃ lat lng, Double.read? (microText c.microLat) = some lat ∧
      Double.read? (microText c.microLng) = some lng ∧ ofDegrees? lat lng = .ok c := by
  have hvalid := c.valid
  obtain ⟨lat, hlat, hlatMicro, hlatRange⟩ :=
    exists_read?_microText c.microLat (by omega)
  obtain ⟨lng, hlng, hlngMicro, hlngRange⟩ :=
    exists_read?_microText c.microLng (by omega)
  refine ⟨lat, lng, hlat, hlng, ?_⟩
  have hlatIn : Double.inRange (-90) 90 lat = true := hlatRange 90 (by decide) (by omega)
  have hlngIn : Double.inRange (-180) 180 lng = true := hlngRange 180 (by decide) (by omega)
  unfold ofDegrees? ofMicro?
  rw [hlatMicro, hlngMicro, hlatIn, hlngIn]
  simp only [Bool.not_true, Bool.false_eq_true, if_false]
  rw [dif_neg (by omega), dif_neg (by omega)]

end Coord

end TagGrid
