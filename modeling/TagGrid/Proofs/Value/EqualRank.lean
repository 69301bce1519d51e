import TagGrid.Proofs.Value.Order
import TagGrid.Proofs.Zinc.Values

/-! # The order of equal values

Equal values are of the same rank as long as their texts are not what is compared. Lists are
compared by their texts, and the texts of equal lists differ as soon as two refs in them
display something different or two zeros have different signs.
-/

namespace TagGrid

theorem signed_eq_iff {s t : Bool} {m n : Nat} :
    (if s then -(m : Int) else m) = (if t then -(n : Int) else n) ↔ m = n ∧ (s = t ∨ m = 0) := by
  cases s <;> cases t <;> simp <;> omega

namespace Double

/-- Numbers in one place are the same, but for the two zeros. -/
theorem eq_or_zero_of_place?_eq {x y : Double} (h : x.place? = y.place?) :
    x = y ∨ ∃ s t, x = zero s ∧ y = zero t := by
  cases x with
  | nan => exact .inl (place?_eq_none_iff.1 h.symm).symm
  | infinity s =>
    cases y with
    | nan => cases h
    | infinity t =>
      obtain ⟨-, rfl | hzero⟩ := signed_eq_iff.1 (Option.some.inj h)
      · exact .inl rfl
      · exact absurd hzero grainLimit_pos.ne'
    | finite t grains hgrains =>
      exact absurd (signed_eq_iff.1 (Option.some.inj h)).1 hgrains.1.ne'
  | finite s grains hgrains =>
    cases y with
    | nan => cases h
    | infinity t => exact absurd (signed_eq_iff.1 (Option.some.inj h)).1 hgrains.1.ne
    | finite t grains' hgrains' =>
      obtain ⟨rfl, rfl | rfl⟩ := signed_eq_iff.1 (Option.some.inj h)
      · exact .inl rfl
      · exact .inr ⟨s, t, rfl, rfl⟩

end Double

namespace Zinc

variable {s t text text' : List Char}

/-- Where a value ends that is read back, another one does not go on. -/
theorem ReadsBack.append_inj {a b : Value} (ha : ReadsBack text a) (hb : ReadsBack text' b)
    (hs : Follows s) (ht : Follows t) (heq : text ++ s = text' ++ t) : a = b ∧ s = t := by
  have hread := ha .data s hs
  rw [heq, hb .data t ht] at hread
  cases hread
  exact ⟨rfl, rfl⟩

end Zinc

open Zinc

namespace Value

variable {a b : Value}

/-- The signs of zeros show in the texts of equal numbers. -/
theorem number_append_inj {m n : Number} {s t : List Char} (h : m.same n = true)
    (heq : m.text ++ s = n.text ++ t) : m = n ∧ s = t := by
  obtain ⟨hplace, hunit⟩ := Number.same_iff.1 h
  obtain ⟨x, u, hm⟩ := m
  obtain ⟨y, w, hn⟩ := n
  obtain rfl : u = w := hunit
  obtain hvalue | ⟨p, q, hx, hy⟩ := Double.eq_or_zero_of_place?_eq hplace
  · obtain rfl : x = y := hvalue
    exact ⟨rfl, List.append_cancel_left heq⟩
  · obtain rfl : x = .zero p := hx
    obtain rfl : y = .zero q := hy
    by_cases hsign : p = q
    · subst hsign
      exact ⟨rfl, List.append_cancel_left heq⟩
    · -- one of the texts starts with a minus sign and the other one with a digit
      cases p <;> cases q <;> first | exact absurd rfl hsign | cases heq

mutual

theorem zinc_append_inj (a b : Value) (h : a.same b = true) {s t : List Char} (hs : Follows s)
    (ht : Follows t) (heq : a.zinc ++ s = b.zinc ++ t) : a = b ∧ s = t := by
  rcases Value.same_iff.1 h with
    rfl | ⟨m, n, rfl, rfl, h⟩ | ⟨q, r, rfl, rfl, h⟩ | ⟨xs, ys, rfl, rfl, h⟩
  · exact ⟨rfl, List.append_cancel_left heq⟩
  · obtain ⟨rfl, hrest⟩ := number_append_inj h heq
    exact ⟨rfl, hrest⟩
  · exact (readsBack_ref q).append_inj (readsBack_ref r) hs ht heq
  · rw [zinc_list_append, zinc_list_append] at heq
    obtain ⟨rfl, hrest⟩ := zincItems_append_inj xs ys h (List.cons.inj heq).2
    exact ⟨rfl, hrest⟩
termination_by sizeOf a

theorem zincItems_append_inj (xs ys : List Value) (h : sameItems xs ys = true)
    {s t : List Char} (heq : zincItems xs ++ ']' :: s = zincItems ys ++ ']' :: t) :
    xs = ys ∧ s = t := by
  cases xs with
  | nil =>
    cases ys with
    | nil => exact ⟨rfl, (List.cons.inj heq).2⟩
    | cons => cases h
  | cons x xs =>
    cases ys with
    | nil => cases h
    | cons y ys =>
      obtain ⟨hx, hxs⟩ := Value.sameItems_cons.1 h
      -- the last item ends at the bracket, the others end at a comma
      cases xs with
      | nil =>
        cases ys with
        | nil =>
          obtain ⟨rfl, hrest⟩ := zinc_append_inj x y hx (follows_item (.inr rfl) s)
            (follows_item (.inr rfl) t) heq
          exact ⟨rfl, (List.cons.inj hrest).2⟩
        | cons => cases hxs
      | cons x' xs =>
        cases ys with
        | nil => cases hxs
        | cons y' ys =>
          simp only [zincItems, List.append_assoc, List.cons_append] at heq
          obtain ⟨rfl, hrest⟩ := zinc_append_inj x y hx (follows_item (.inl rfl) _)
            (follows_item (.inl rfl) _) heq
          obtain ⟨hitems, hrest⟩ := zincItems_append_inj (x' :: xs) (y' :: ys) hxs
            (List.cons.inj hrest).2
          rw [hitems]
          exact ⟨rfl, hrest⟩
termination_by sizeOf xs

end

/-- Equal values have the same text only if they are the same. -/
theorem toZinc_eq_iff_of_same (h : a.same b = true) : a.toZinc = b.toZinc ↔ a = b := by
  refine ⟨fun htext => ?_, congrArg toZinc⟩
  have heq := congrArg String.toList htext
  rw [toZinc, toZinc, String.toList_ofList, String.toList_ofList] at heq
  exact (zinc_append_inj a b h Follows.nil Follows.nil (congrArg (· ++ []) heq)).1

theorem class?_of_same (h : a.same b = true) : a.class? = b.class? := by
  rcases Value.same_iff.1 h with
    rfl | ⟨m, n, rfl, rfl, h⟩ | ⟨q, r, rfl, rfl, h⟩ | ⟨xs, ys, rfl, rfl, h⟩
  · rfl
  · obtain ⟨hplace, hunit⟩ := Number.same_iff.1 h
    rw [class?, class?, hplace, hunit]
  · rfl
  · rfl

theorem class?_eq_none_iff : a.class? = none ↔ a = ofDouble .nan := by
  constructor
  · intro h
    cases a with
    | number n =>
      have hnan : n.value = .nan := Double.place?_eq_none_iff.1 (Option.map_eq_none_iff.1 h)
      rw [number_eq_ofDouble (by rw [hnan]; rfl), hnan]
    | _ => cases h
  · rintro rfl
    rfl

theorem comparable_iff_of_same (h : a.same b = true) : a.Comparable b ↔ a ≠ ofDouble .nan := by
  unfold Comparable
  rw [ne_eq, ← class?_eq_none_iff, ← class?_of_same h]
  cases a.class? <;> simp

theorem rank_eq_iff_of_same (h : a.same b = true) :
    a.rank = b.rank ↔ (a.kind = .list → a = b) := by
  rcases Value.same_iff.1 h with
    rfl | ⟨m, n, rfl, rfl, hsame⟩ | ⟨q, r, rfl, rfl, hsame⟩ | ⟨xs, ys, rfl, rfl, -⟩
  · exact iff_of_true rfl fun _ => rfl
  · rw [rank, rank, (Number.same_iff.1 hsame).1]
    exact iff_of_true rfl fun hlist => by cases hlist
  · rw [rank, rank, Ref.same_iff.1 hsame]
    exact iff_of_true rfl fun hlist => by cases hlist
  · rw [← toZinc_eq_iff_of_same h, rank_of_hasTextOrder rfl, rank_of_hasTextOrder rfl]
    simp [kind]

/-- Equal values are of equal rank, but for not-a-number, which has none, and for lists that
are not the same. -/
theorem compare?_eq_iff_of_same (h : a.same b = true) :
    a.compare? b = some .eq ↔ a ≠ ofDouble .nan ∧ (a.kind = .list → a = b) := by
  rw [compare?_eq_some_iff, Rank.compare_eq_iff, comparable_iff_of_same h, rank_eq_iff_of_same h]

end Value

end TagGrid
