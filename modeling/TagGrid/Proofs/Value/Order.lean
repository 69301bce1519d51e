import TagGrid.Proofs.Grid.Equivalence
import TagGrid.Zinc.ValueText

/-! # The order of values

Whatever two values are compared by, it is numbers or a text, their ranks, and ranks are in
one total order. Values compare if they are of one class, which is a kind or, for numbers, a
unit; not-a-number is of no class. So comparing is a total preorder of each class.
-/

namespace TagGrid

theorem Double.place?_eq_none_iff {x : Double} : x.place? = none ↔ x = .nan := by
  cases x with
  | nan => exact ⟨fun _ => rfl, fun _ => rfl⟩
  | infinity | finite => exact ⟨nofun, nofun⟩

/-! ## Ranks -/

/-- What a value is compared by: some numbers, and then a text. -/
structure Rank where
  numbers : List Int
  text : String
  deriving Repr, DecidableEq

namespace Rank

def compare (r s : Rank) : Ordering :=
  (Ord.compare r.numbers s.numbers).then (Ord.compare r.text s.text)

instance : Std.TransCmp compare :=
  inferInstanceAs (Std.TransCmp (compareLex (compareOn numbers) (compareOn text)))

theorem compare_swap (r s : Rank) : s.compare r = (r.compare s).swap :=
  Std.OrientedCmp.eq_swap

theorem compare_eq_iff {r s : Rank} : r.compare s = .eq ↔ r = s := by
  rw [compare, Ordering.then_eq_eq, Std.LawfulEqOrd.compare_eq_iff_eq,
    Std.LawfulEqOrd.compare_eq_iff_eq]
  cases r
  cases s
  rw [mk.injEq]

theorem compare_numbers (xs ys : List Int) (text : String) :
    (⟨xs, text⟩ : Rank).compare ⟨ys, text⟩ = Ord.compare xs ys := by
  rw [compare, Std.ReflOrd.compare_self, Ordering.then_eq]

theorem compare_number (x y : Int) (text : String) :
    (⟨[x], text⟩ : Rank).compare ⟨[y], text⟩ = Ord.compare x y := by
  rw [compare_numbers, List.compare_cons_cons, List.compare_nil_nil, Ordering.then_eq]

theorem compare_text (x y : String) : (⟨[], x⟩ : Rank).compare ⟨[], y⟩ = Ord.compare x y := by
  rw [compare, Std.ReflOrd.compare_self, Ordering.eq_then]

end Rank

/-- Whether the values of a kind have no order but that of their texts. -/
def Kind.hasTextOrder : Kind → Bool
  | .marker | .remove | .na | .bin | .coord | .list | .typed => true
  | _ => false

namespace Value

variable {a b c : Value} {m n : Number} {o : Ordering}

def rank : Value → Rank
  | number n => ⟨n.value.place?.toList, ""⟩
  | bool b => ⟨[b.toInt], ""⟩
  | date d => ⟨[d.year, d.month, d.day], ""⟩
  | time t => ⟨[t.millisOfDay], ""⟩
  | dateTime t => ⟨[t.millis], ""⟩
  | str s | uri s => ⟨[], s⟩
  | ref r => ⟨[], r.id⟩
  | symbol s => ⟨[], s.name⟩
  | v => ⟨[], v.toZinc⟩

theorem rank_of_hasTextOrder (h : a.kind.hasTextOrder = true) : a.rank = ⟨[], a.toZinc⟩ := by
  cases a with
  | marker | remove | na | bin | coord | list | typed => rfl
  | _ => cases h

/-! ## Classes -/

/-- The class of a value: its kind, and the unit of a number. -/
def class? : Value → Option (Kind × Option String)
  | number n => n.value.place?.map fun _ => (.number, n.unit)
  | v => some (v.kind, none)

/-- Two values are of one class. -/
def Comparable (a b : Value) : Prop := ∃ k, a.class? = some k ∧ b.class? = some k

theorem Comparable.symm (h : a.Comparable b) : b.Comparable a := by
  obtain ⟨k, ha, hb⟩ := h
  exact ⟨k, hb, ha⟩

theorem Comparable.trans (hab : a.Comparable b) (hbc : b.Comparable c) : a.Comparable c := by
  obtain ⟨k, ha, hb⟩ := hab
  obtain ⟨l, hb', hc⟩ := hbc
  cases hb.symm.trans hb'
  exact ⟨k, ha, hc⟩

theorem exists_number (h : a.kind = .number) : ∃ n, a = number n := by
  cases a with
  | number n => exact ⟨n, rfl⟩
  | _ => cases h

theorem class?_of_kind (h : a.kind ≠ .number) : a.class? = some (a.kind, none) := by
  cases a with
  | number n => exact absurd rfl h
  | _ => rfl

theorem kind_of_class? {k : Kind × Option String} (h : a.class? = some k) : a.kind = k.1 := by
  cases a with
  | number n =>
    obtain ⟨_, -, rfl⟩ := Option.map_eq_some_iff.1 h
    rfl
  | _ =>
    cases h
    rfl

theorem Comparable.kind_eq (h : a.Comparable b) : a.kind = b.kind := by
  obtain ⟨k, ha, hb⟩ := h
  rw [kind_of_class? ha, kind_of_class? hb]

theorem comparable_of_kind (h : a.kind = b.kind) (hn : a.kind ≠ .number) : a.Comparable b :=
  ⟨_, class?_of_kind hn, h ▸ class?_of_kind (h ▸ hn)⟩

theorem comparable_number_iff : (number m).Comparable (number n) ↔
    m.unit = n.unit ∧ m.value ≠ .nan ∧ n.value ≠ .nan := by
  simp only [ne_eq, ← Double.place?_eq_none_iff, Comparable, class?]
  cases m.value.place? <;> cases n.value.place? <;> simp [eq_comm]

/-- Values of one kind are of one class, but for numbers of different units and
not-a-number. -/
theorem not_comparable_iff : ¬ a.Comparable b ↔ a.kind ≠ b.kind ∨
    ∃ m n : Number, a = number m ∧ b = number n ∧
      (m.unit ≠ n.unit ∨ m.value = .nan ∨ n.value = .nan) := by
  constructor
  · intro h
    by_cases hkind : a.kind = b.kind
    · by_cases hnumber : a.kind = .number
      · obtain ⟨m, rfl⟩ := exists_number hnumber
        obtain ⟨n, rfl⟩ := exists_number hkind.symm
        rw [comparable_number_iff] at h
        exact .inr ⟨m, n, rfl, rfl, by tauto⟩
      · exact absurd (comparable_of_kind hkind hnumber) h
    · exact .inl hkind
  · rintro (hkind | ⟨m, n, rfl, rfl, hnumbers⟩)
    · exact fun h => hkind h.kind_eq
    · rw [comparable_number_iff]
      tauto

/-! ## Comparing -/

theorem compare?_of_kind_ne (h : a.kind ≠ b.kind) : a.compare? b = none := by
  rw [compare?.eq_def]
  split
  case h_10 => exact if_neg fun hkind => h (eq_of_beq hkind)
  all_goals exact absurd rfl h

theorem compare?_number (m n : Number) : (number m).compare? (number n) =
    if m.unit = n.unit then m.value.compare? n.value else none := rfl

theorem compare_natCast (m n : Nat) : Ord.compare (m : Int) n = Ord.compare m n := by
  simp only [Int.compare_eq_ite_lt, Nat.compare_eq_ite_lt, Int.ofNat_lt]

theorem compare_rank_date (d e : Date) : (date d).rank.compare (date e).rank = d.compare e := by
  unfold rank Date.compare
  rw [Rank.compare_numbers]
  simp only [List.compare_cons_cons, List.compare_nil_nil, Ordering.then_eq, compare_natCast]

/-- The values of a class are compared by their ranks. -/
theorem compare?_of_comparable (h : a.Comparable b) :
    a.compare? b = some (a.rank.compare b.rank) := by
  have hkind := h.kind_eq
  have hsame : a.sameKind b = true := beq_iff_eq.2 hkind
  cases a with
  | number m =>
    obtain ⟨n, rfl⟩ := exists_number hkind.symm
    obtain ⟨hunit, hm, hn⟩ := comparable_number_iff.1 h
    obtain ⟨x, hx⟩ := Option.ne_none_iff_exists'.1 (mt Double.place?_eq_none_iff.1 hm)
    obtain ⟨y, hy⟩ := Option.ne_none_iff_exists'.1 (mt Double.place?_eq_none_iff.1 hn)
    rw [compare?_number, if_pos hunit, Double.compare?, hx, hy, rank, rank, hx, hy]
    exact congrArg some (Rank.compare_number x y _).symm
  | bool x =>
    cases b with
    | bool y => cases x <;> cases y <;> rfl
    | _ => cases hkind
  | str x =>
    cases b with
    | str y => exact congrArg some (Rank.compare_text x y).symm
    | _ => cases hkind
  | uri x =>
    cases b with
    | uri y => exact congrArg some (Rank.compare_text x y).symm
    | _ => cases hkind
  | ref r =>
    cases b with
    | ref s => exact congrArg some (Rank.compare_text r.id s.id).symm
    | _ => cases hkind
  | symbol x =>
    cases b with
    | symbol y => exact congrArg some (Rank.compare_text x.name y.name).symm
    | _ => cases hkind
  | date d =>
    cases b with
    | date e => exact congrArg some (compare_rank_date d e).symm
    | _ => cases hkind
  | time t =>
    cases b with
    | time u =>
      have hmillis := compare_natCast t.millisOfDay u.millisOfDay
      exact congrArg some (hmillis.symm.trans (Rank.compare_number _ _ _).symm)
    | _ => cases hkind
  | dateTime t =>
    cases b with
    | dateTime u => exact congrArg some (Rank.compare_number t.millis u.millis _).symm
    | _ => cases hkind
  | marker | remove | na | bin | coord | list | typed =>
    -- the last case of `compare?`, which tests the kinds again
    rw [rank_of_hasTextOrder rfl, rank_of_hasTextOrder (hkind ▸ rfl), Rank.compare_text]
    exact if_pos hsame

theorem compare?_of_not_comparable (h : ¬ a.Comparable b) : a.compare? b = none := by
  obtain hkind | ⟨m, n, rfl, rfl, hnumbers⟩ := not_comparable_iff.1 h
  · exact compare?_of_kind_ne hkind
  · rw [compare?_number]
    unfold Double.compare?
    obtain hunit | hm | hn := hnumbers
    · exact if_neg hunit
    · rw [hm]
      exact ite_self none
    · rw [hn]
      cases m.value.place? <;> exact ite_self none

theorem compare?_eq_none_iff : a.compare? b = none ↔ ¬ a.Comparable b := by
  refine ⟨fun hnone h => ?_, compare?_of_not_comparable⟩
  rw [compare?_of_comparable h] at hnone
  cases hnone

theorem compare?_eq_some_iff :
    a.compare? b = some o ↔ a.Comparable b ∧ a.rank.compare b.rank = o := by
  by_cases h : a.Comparable b
  · rw [compare?_of_comparable h, Option.some.injEq, and_iff_right h]
  · rw [compare?_of_not_comparable h]
    exact ⟨nofun, fun hranks => absurd hranks.1 h⟩

/-- The other way around the answer is reversed. -/
theorem compare?_swap (a b : Value) : b.compare? a = (a.compare? b).map Ordering.swap := by
  by_cases h : a.Comparable b
  · rw [compare?_of_comparable h, compare?_of_comparable h.symm, Rank.compare_swap, Option.map_some]
  · rw [compare?_of_not_comparable h, compare?_of_not_comparable (mt Comparable.symm h),
      Option.map_none]

/-- Two values compare, and the first one does not come after the second one. -/
def NotAfter (a b : Value) : Prop := ∃ o, a.compare? b = some o ∧ o ≠ .gt

theorem notAfter_iff : a.NotAfter b ↔ a.Comparable b ∧ (a.rank.compare b.rank).isLE = true := by
  simp only [NotAfter, compare?_eq_some_iff, Ordering.isLE_iff_ne_gt]
  exact ⟨fun ⟨_, ⟨h, hranks⟩, ho⟩ => ⟨h, hranks ▸ ho⟩, fun ⟨h, ho⟩ => ⟨_, ⟨h, rfl⟩, ho⟩⟩

theorem NotAfter.trans (hab : a.NotAfter b) (hbc : b.NotAfter c) : a.NotAfter c := by
  obtain ⟨hclass, hle⟩ := notAfter_iff.1 hab
  obtain ⟨hclass', hle'⟩ := notAfter_iff.1 hbc
  exact notAfter_iff.2 ⟨hclass.trans hclass', Std.TransCmp.isLE_trans hle hle'⟩

end Value

end TagGrid
