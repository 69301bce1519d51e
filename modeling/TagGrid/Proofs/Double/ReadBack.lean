import TagGrid.Double.Shortest
import TagGrid.Proofs.Double.Rounding
import TagGrid.Proofs.Text.Digits
import TagGrid.Proofs.Text.Runs

/-! # Reading the text of a double

The text of a double is read as the same double. The shortest decimal is taken only
when it rounds to the double, and the full expansion always does, so what is left is
that the plain layout of a decimal is read as that decimal.
-/

namespace TagGrid

open Text

/-- Decimal text without a sign and an exponent. -/
inductive PlainText : List Char → Prop where
  | whole {ds : List Char} (nonempty : ds ≠ []) (digits : ∀ c ∈ ds, c.isDigit = true) :
      PlainText ds
  | point {ds fs : List Char} (nonempty : ds ≠ []) (digits : ∀ c ∈ ds, c.isDigit = true)
      (some_fraction : fs ≠ []) (fraction : ∀ c ∈ fs, c.isDigit = true) :
      PlainText (ds ++ '.' :: fs)

/-- Plain text starts with a digit. -/
theorem PlainText.exists_cons {cs : List Char} (h : PlainText cs) :
    ∃ c rest, cs = c :: rest ∧ c.isDigit = true := by
  have hhead : ∀ {ds : List Char} (more : List Char), ds ≠ [] → (∀ c ∈ ds, c.isDigit = true) →
      ∃ c rest, ds ++ more = c :: rest ∧ c.isDigit = true := by
    intro ds more hne hds
    obtain ⟨c, rest, rfl⟩ := List.exists_cons_of_ne_nil hne
    exact ⟨c, rest ++ more, rfl, hds c List.mem_cons_self⟩
  cases h with
  | whole hne hds => simpa using hhead [] hne hds
  | point hne hds _ _ => exact hhead _ hne hds

theorem PlainText.mem {cs : List Char} (h : PlainText cs) {c : Char} (hc : c ∈ cs) :
    c.isDigit = true ∨ c = '.' := by
  cases h with
  | whole _ hds => exact .inl (hds c hc)
  | point _ hds _ hfs =>
    rcases List.mem_append.1 hc with hc | hc
    · exact .inl (hds c hc)
    · rcases List.mem_cons.1 hc with rfl | hc
      · exact .inr rfl
      · exact .inl (hfs c hc)

namespace Decimal

variable {ds fs : List Char}

theorem read?_digits (hne : ds ≠ []) (hds : ∀ c ∈ ds, c.isDigit = true) :
    read? ds = some ⟨ofDigits ds, 0⟩ := by
  have htake := Stops.takeWhile_append hds Stops.nil
  have hdrop := Stops.dropWhile_append hds Stops.nil
  rw [List.append_nil] at htake hdrop
  simp [read?, htake, hdrop, fractionDigits, hne]

theorem read?_point (hne : ds ≠ []) (hds : ∀ c ∈ ds, c.isDigit = true)
    (hfs : ∀ c ∈ fs, c.isDigit = true) :
    read? (ds ++ '.' :: fs) = some ⟨ofDigits (ds ++ fs), -(fs.length : Int)⟩ := by
  have hstop : Stops Char.isDigit ('.' :: fs) := Stops.cons rfl
  have htake := Stops.takeWhile_append hds hstop
  have hdrop := Stops.dropWhile_append hds hstop
  have htake' := Stops.takeWhile_append hfs Stops.nil
  have hdrop' := Stops.dropWhile_append hfs Stops.nil
  rw [List.append_nil] at htake' hdrop'
  simp [read?, htake, hdrop, htake', hdrop', fractionDigits, hne]

/-- The decimal that the plain layout is read as: zeros at the end count as digits. -/
def settled (d : Decimal) : Decimal :=
  if 0 ≤ d.exponent then ⟨d.coefficient * 10 ^ d.exponent.toNat, 0⟩ else d

theorem ofDigits_digits (n : Nat) : ofDigits (digits n) = n := Nat.ofDigitChars_ten_toDigits

theorem isDigit_of_mem_digits {n : Nat} : ∀ c ∈ digits n, c.isDigit = true :=
  isDigit_of_mem_toDigits

theorem isDigit_of_mem_zeros {n : Nat} : ∀ c ∈ List.replicate n '0', c.isDigit = true := by
  intro c hc
  rw [List.eq_of_mem_replicate hc]
  rfl

theorem isDigit_of_mem_append (hds : ∀ c ∈ ds, c.isDigit = true)
    (hfs : ∀ c ∈ fs, c.isDigit = true) : ∀ c ∈ ds ++ fs, c.isDigit = true := by
  intro c hc
  rcases List.mem_append.1 hc with hc | hc
  · exact hds c hc
  · exact hfs c hc

/-- Digits with a point are plain text, and are read with the places after the point. -/
theorem withPoint_spec {places : Nat} (hplaces : 0 < places) (hne : ds ≠ [])
    (hds : ∀ c ∈ ds, c.isDigit = true) :
    PlainText (withPoint ds places) ∧
      read? (withPoint ds places) = some ⟨ofDigits ds, -(places : Int)⟩ := by
  unfold withPoint
  split
  · rename_i hlt
    have hfront : ds.take (ds.length - places) ≠ [] := by
      have hlen : (ds.take (ds.length - places)).length ≠ 0 := by
        rw [List.length_take]
        omega
      exact fun hnil => hlen (by rw [hnil, List.length_nil])
    have hback : (ds.drop (ds.length - places)).length = places := by
      rw [List.length_drop]
      omega
    have hbackne : ds.drop (ds.length - places) ≠ [] := by
      intro hnil
      rw [hnil, List.length_nil] at hback
      omega
    have hfrontd : ∀ c ∈ ds.take (ds.length - places), c.isDigit = true :=
      fun c hc => hds c (List.mem_of_mem_take hc)
    have hbackd : ∀ c ∈ ds.drop (ds.length - places), c.isDigit = true :=
      fun c hc => hds c (List.mem_of_mem_drop hc)
    refine ⟨.point hfront hfrontd hbackne hbackd, ?_⟩
    rw [read?_point hfront hfrontd hbackd, List.take_append_drop, hback]
  · rename_i hge
    have hzero : ∀ c ∈ ['0'], c.isDigit = true := by simp
    have hfrac : ∀ c ∈ List.replicate (places - ds.length) '0' ++ ds, c.isDigit = true :=
      isDigit_of_mem_append isDigit_of_mem_zeros hds
    have hlen : (List.replicate (places - ds.length) '0' ++ ds).length = places := by
      rw [List.length_append, List.length_replicate]
      omega
    have hshape : ['0', '.'] ++ List.replicate (places - ds.length) '0' ++ ds =
        ['0'] ++ '.' :: (List.replicate (places - ds.length) '0' ++ ds) := by simp
    rw [hshape]
    refine ⟨.point (by simp) hzero (by simp [hne]) hfrac, ?_⟩
    rw [read?_point (by simp) hzero hfrac, hlen]
    -- Zeros in front, the one before the point included, add nothing to the value.
    have hvalue : ofDigits (['0'] ++ (List.replicate (places - ds.length) '0' ++ ds)) =
        ofDigits ds := by
      have hzeros : ['0'] ++ (List.replicate (places - ds.length) '0' ++ ds) =
          List.replicate (places - ds.length + 1) '0' ++ ds := by
        rw [List.replicate_succ]
        rfl
      unfold ofDigits
      rw [hzeros, Nat.ofDigitChars_append, Nat.ofDigitChars_replicate_zero, Nat.mul_zero]
    rw [hvalue]

theorem plain_spec (d : Decimal) : PlainText d.plain ∧ read? d.plain = some d.settled := by
  have hne : digits d.coefficient ≠ [] := Nat.toDigits_ne_nil
  unfold plain settled
  split
  · have hall := isDigit_of_mem_append (isDigit_of_mem_digits (n := d.coefficient))
      (isDigit_of_mem_zeros (n := d.exponent.toNat))
    have hne' : digits d.coefficient ++ List.replicate d.exponent.toNat '0' ≠ [] := by simp [hne]
    refine ⟨.whole hne' hall, ?_⟩
    rw [read?_digits hne' hall]
    have hvalue : ofDigits (digits d.coefficient ++ List.replicate d.exponent.toNat '0') =
        d.coefficient * 10 ^ d.exponent.toNat := by
      unfold ofDigits digits
      rw [Nat.ofDigitChars_append, Nat.ofDigitChars_replicate_zero,
        Nat.ofDigitChars_ten_toDigits, Nat.mul_comm]
    rw [hvalue]
  · rename_i hneg
    have hplaces : 0 < (-d.exponent).toNat := by omega
    obtain ⟨hplain, hread⟩ := withPoint_spec hplaces hne isDigit_of_mem_digits
    refine ⟨hplain, ?_⟩
    have hexp : -((-d.exponent).toNat : Int) = d.exponent := by omega
    rw [hread, ofDigits_digits, hexp]

theorem toDouble_eq_ofRatio {negative : Bool} {d : Decimal} (hc : d.coefficient ≠ 0)
    (hhigh : d.exponent ≤ 310) (hlow : -330 ≤ d.exponent + d.coefficient.log2 + 1) :
    d.toDouble negative = Double.ofRatio negative
      (d.coefficient * Nat.pow 10 d.exponent.toNat) (Nat.pow 10 (-d.exponent).toNat) := by
  unfold toDouble nearest
  rw [if_neg hc, if_neg (by omega), if_neg (by omega)]

/-- A decimal that is near a finite double is near it also with its zeros written out. -/
theorem toDouble_settled {negative : Bool} {d : Decimal} {grains : Nat}
    {h : Double.Storable grains} (hd : d.toDouble negative = .finite negative grains h) :
    d.settled.toDouble negative = .finite negative grains h := by
  by_cases hexp : 0 ≤ d.exponent
  · have hset : d.settled = ⟨d.coefficient * 10 ^ d.exponent.toNat, 0⟩ := if_pos hexp
    rw [hset]
    by_cases hc : d.coefficient = 0
    · rw [← hd]
      simp [toDouble, nearest, hc]
    · have hhigh : d.exponent ≤ 310 := by
        by_contra hover
        simp [toDouble, nearest, hc, show 310 < d.exponent by omega] at hd
      have hzero : (-d.exponent).toNat = 0 := by omega
      have hpow : d.coefficient * 10 ^ d.exponent.toNat ≠ 0 :=
        Nat.mul_ne_zero hc (Nat.ne_of_gt (Nat.pow_pos (by decide)))
      rw [toDouble_eq_ofRatio hc hhigh (by omega), hzero] at hd
      rw [toDouble_eq_ofRatio hpow (by simp) (by simp only; omega), ← hd]
      simp
  · rwa [show d.settled = d from if_neg hexp]

end Decimal

namespace Double

theorem ofGrains_of_ofGrains_false {num den grains : Nat} {h : Storable grains}
    (hfalse : ofGrains false num den = .finite false grains h) (negative : Bool) :
    ofGrains negative num den = .finite negative grains h := by
  unfold ofGrains at hfalse
  split at hfalse
  · rename_i hfits
    obtain rfl := (Double.finite.inj hfalse).2
    exact dif_pos hfits
  · simp at hfalse

/-- The sign has no part in the choice of the nearest double. -/
theorem toDouble_of_toDouble_false {d : Decimal} {grains : Nat} {h : Storable grains}
    (hfalse : d.toDouble false = .finite false grains h) (negative : Bool) :
    d.toDouble negative = .finite negative grains h := by
  have hzero : zero false = .finite false grains h → zero negative = .finite negative grains h := by
    intro heq
    obtain rfl := (Double.finite.inj heq).2
    rfl
  unfold Decimal.toDouble Decimal.nearest at *
  split at hfalse
  · rw [if_pos ‹_›]
    exact hzero hfalse
  · rw [if_neg ‹_›]
    split at hfalse
    · simp at hfalse
    · rw [if_neg ‹_›]
      split at hfalse
      · rw [if_pos ‹_›]
        exact hzero hfalse
      · rw [if_neg ‹_›]
        exact ofGrains_of_ofGrains_false hfalse negative

/-- A quotient of a count of grains that is stored as it is. -/
theorem ofGrains_mul {grains den : Nat} (negative : Bool) (h : Storable grains)
    (hden : 0 < den) : ofGrains negative (grains * den) den = .finite negative grains h := by
  have hround := roundTo_mul_of_hasPrecision hden h.2
  unfold ofGrains
  rw [dif_pos (by rw [hround]; exact h.1)]
  simp only [hround]

/-- A number of grains with `n` places is stored as it is when a grain is `2 ^ -n`. -/
theorem toDouble_mul_pow_five {grains n : Nat} (h : Storable grains) (hne : grains ≠ 0)
    (hgrain : grainsPerUnit = Nat.pow 2 n) (hn : 743 ≤ n) :
    Decimal.toDouble false ⟨grains * Nat.pow 5 n, -n⟩ = .finite false grains h := by
  have hc : grains * Nat.pow 5 n ≠ 0 :=
    Nat.mul_ne_zero hne (Nat.ne_of_gt (Nat.pow_pos (by decide)))
  have hlog : n ≤ (grains * Nat.pow 5 n).log2 := by
    rw [Nat.le_log2 hc]
    calc
      2 ^ n ≤ 5 ^ n := Nat.pow_le_pow_left (by decide) n
      _ ≤ grains * 5 ^ n := Nat.le_mul_of_pos_left _ (Nat.pos_of_ne_zero hne)
  have hratio : grains * Nat.pow 5 n * Nat.pow 10 0 * Nat.pow 2 n = grains * Nat.pow 10 n := by
    simp only [Nat.pow_eq, Nat.pow_zero, Nat.mul_one, Nat.mul_assoc]
    rw [← Nat.mul_pow]
  rw [Decimal.toDouble_eq_ofRatio hc (by simp only; omega) (by simp only; omega), ofRatio, hgrain]
  simp only [show (-(n : Int)).toNat = 0 by omega, Int.neg_neg, Int.toNat_natCast, hratio]
  exact ofGrains_mul false h (Nat.pow_pos (by decide))

theorem toDouble_expansion {grains : Nat} (h : Storable grains) (hne : grains ≠ 0) :
    (expansion grains).toDouble false = .finite false grains h :=
  toDouble_mul_pow_five h hne rfl (by decide)

/-- The shortest decimal of a finite double is near that double and no other. -/
theorem toDouble_shortest (tie : Tie) {grains : Nat} (h : Storable grains) (negative : Bool) :
    (shortest tie grains h).toDouble negative = .finite negative grains h := by
  apply toDouble_of_toDouble_false
  unfold shortest
  split
  · rename_i hzero
    subst hzero
    rfl
  · rename_i hne
    cases hfind : (candidates tie grains).find? fun d =>
        d.toDouble false == .finite false grains h with
    | none => exact toDouble_expansion h hne
    | some d => simpa using List.find?_some hfind

/-- The text of a finite double is plain text after a sign. -/
theorem text_finite (negative : Bool) {grains : Nat} (h : Storable grains) :
    text (.finite negative grains h) =
      (if negative then ['-'] else []) ++ (shortest .larger grains h).plain := rfl

theorem plainText_shortest {grains : Nat} (h : Storable grains) :
    PlainText (shortest .larger grains h).plain :=
  (Decimal.plain_spec _).1

theorem mem_text {x : Double} {c : Char} (h : c ∈ x.text) :
    c.isAlphanum = true ∨ c = '.' ∨ c = '-' := by
  have hsign {negative : Bool} (h : c ∈ if negative then ['-'] else []) : c = '-' := by
    cases negative with
    | true => exact List.mem_singleton.1 h
    | false => cases h
  cases x with
  | nan => exact .inl (List.all_eq_true.1 (by decide : "NaN".toList.all Char.isAlphanum) c h)
  | infinity negative =>
    rcases List.mem_append.1 h with h | h
    · exact .inr (.inr (hsign h))
    · exact .inl (List.all_eq_true.1 (by decide : "INF".toList.all Char.isAlphanum) c h)
  | finite negative grains hstorable =>
    rcases List.mem_append.1 h with h | h
    · exact .inr (.inr (hsign h))
    · rcases (plainText_shortest hstorable).mem h with hdigit | hpoint
      · exact .inl (Bool.or_eq_true_iff.2 (.inr hdigit))
      · exact .inr (.inl hpoint)

theorem splitSign_digit {c : Char} (hc : c.isDigit = true) (cs : List Char) (negative : Bool) :
    splitSign ((if negative then ['-'] else []) ++ c :: cs) = (negative, c :: cs) := by
  cases negative with
  | true => rfl
  | false =>
    have hminus : c ≠ '-' := by rintro rfl; simp at hc
    have hplus : c ≠ '+' := by rintro rfl; simp at hc
    simp [splitSign, hminus, hplus]

theorem splitSign_plain {cs : List Char} (h : PlainText cs) (negative : Bool) :
    splitSign ((if negative then ['-'] else []) ++ cs) = (negative, cs) := by
  obtain ⟨c, rest, rfl, hc⟩ := h.exists_cons
  exact splitSign_digit hc rest negative

/-- The text of a double is read as the same double. -/
theorem read?_text (x : Double) : read? x.text = some x := by
  cases x with
  | nan => rfl
  | infinity negative => cases negative <;> rfl
  | finite negative grains h =>
    unfold read? readWith?
    rw [text_finite, splitSign_plain (plainText_shortest h)]
    simp only [(Decimal.plain_spec _).2]
    rw [Decimal.toDouble_settled (toDouble_shortest .larger h negative)]

end Double

end TagGrid
