import TagGrid.Proofs.Filter.Evaluation
import TagGrid.Proofs.Value.EqualRank

/-! # Comparisons in filters

The six comparisons of a filter go together as those of a total preorder, within each class
of values that compare. Equality goes with the order except in lists: two lists can be
equal and one of them still come before the other.
-/

namespace TagGrid

variable {found given : Value}

theorem Value.kind_eq_of_same (h : found.same given = true) : found.kind = given.kind := by
  rcases Value.same_iff.1 h with
    rfl | ⟨m, n, rfl, rfl, -⟩ | ⟨q, r, rfl, rfl, -⟩ | ⟨xs, ys, rfl, rfl, -⟩
  all_goals rfl

namespace Relation

theorem holds_ne_iff : ne.holds found given = true ↔
    found.kind = given.kind ∧ found.same given = false := by
  rw [holds, Bool.and_eq_true_iff, Value.sameKind, beq_iff_eq, Bool.not_eq_true']

theorem holds_le_iff : le.holds found given = true ↔
    found.compare? given ≠ none ∧ gt.holds found given = false := by
  unfold holds
  cases found.compare? given with
  | none => simp
  | some o => cases o <;> simp

theorem holds_ge_iff : ge.holds found given = true ↔
    found.compare? given ≠ none ∧ lt.holds found given = false := by
  unfold holds
  cases found.compare? given with
  | none => simp
  | some o => cases o <;> simp

end Relation

/-! ## The six comparisons -/

/-- How the comparisons with a value go together, if `found` is what is compared with it. -/
structure Coherent (found : Option Value) (given : Value) (holds : Relation → Bool) : Prop where
  not_eq_ne : ¬ (holds .eq = true ∧ holds .ne = true)
  eq_or_ne : holds .eq = true ∨ holds .ne = true ↔ ∃ v, found = some v ∧ v.kind = given.kind
  not_lt_gt : ¬ (holds .lt = true ∧ holds .gt = true)
  le : holds .le = true ↔ (∃ v, found = some v ∧ v.compare? given ≠ none) ∧ holds .gt = false
  ge : holds .ge = true ↔ (∃ v, found = some v ∧ v.compare? given ≠ none) ∧ holds .lt = false

theorem coherent_none (given : Value) : Coherent none given fun _ => false := by
  constructor <;> simp

theorem coherent_some (found given : Value) :
    Coherent (some found) given fun relation => relation.holds found given where
  not_eq_ne := by
    rintro ⟨heq, hne⟩
    have hdiffer := (Relation.holds_ne_iff.1 hne).2
    exact Bool.false_ne_true (hdiffer.symm.trans heq)
  eq_or_ne := by
    constructor
    · rintro (heq | hne)
      · exact ⟨found, rfl, Value.kind_eq_of_same heq⟩
      · exact ⟨found, rfl, (Relation.holds_ne_iff.1 hne).1⟩
    · rintro ⟨v, hv, hkind⟩
      cases hv
      cases hsame : found.same given with
      | true => exact .inl hsame
      | false => exact .inr (Relation.holds_ne_iff.2 ⟨hkind, hsame⟩)
  not_lt_gt := by
    rintro ⟨hlt, hgt⟩
    cases (eq_of_beq hlt).symm.trans (eq_of_beq hgt)
  le := by simpa using Relation.holds_le_iff
  ge := by simpa using Relation.holds_ge_iff

namespace Filter

variable {α : Type} [Tagged α]

theorem coherent_includes (record : α) (resolver : Resolver) (path : Path) (given : Value) :
    Coherent (path.resolve record resolver) given fun relation =>
      (compare relation path given).includes record resolver := by
  simp only [includes]
  cases path.resolve record resolver with
  | none => exact coherent_none given
  | some found => exact coherent_some found given

/-- Comparing is a preorder, total among the values of a kind, numbers with one unit each and
not-a-number left out. So each comparison with a value agrees with the others. -/
theorem comparison_is_preorder :
    (∀ a b : Value, b.compare? a = (a.compare? b).map Ordering.swap) ∧
    (∀ a b : Value, a.compare? b = none ↔ a.kind ≠ b.kind ∨
      ∃ m n : Number, a = .number m ∧ b = .number n ∧
        (m.unit ≠ n.unit ∨ m.value = .nan ∨ n.value = .nan)) ∧
    (∀ a b c : Value, a.NotAfter b → b.NotAfter c → a.NotAfter c) ∧
    ∀ {α : Type} [Tagged α] (record : α) (resolver : Resolver) (path : Path) (given : Value),
      Coherent (path.resolve record resolver) given fun relation =>
        (compare relation path given).includes record resolver := by
  refine ⟨Value.compare?_swap, fun a b => ?_, fun a b c => Value.NotAfter.trans, ?_⟩
  · rw [Value.compare?_eq_none_iff, Value.not_comparable_iff]
  · exact coherent_includes

/-- Nine o'clock in universal time. -/
def sampleInstant : Timestamp where
  date := ⟨2024, 1, 2, by decide⟩
  time := ⟨9, 0, 0, 0, by decide⟩
  zone := .utc
  offset := 0
  valid := by decide

/-- A time of the same day in New York. -/
def sampleLocal (hour : Fin 24) : Timestamp where
  date := ⟨2024, 1, 2, by decide⟩
  time := ⟨hour, 0, 0, 0, by omega⟩
  zone := ⟨⟨"New_York", "America/New_York", -300⟩, by decide⟩
  offset := -18000
  valid := by decide

/-- Four o'clock in New York is nine o'clock in universal time, and five o'clock is later. -/
theorem sampleInstant_not_after :
    (Value.dateTime sampleInstant).NotAfter (.dateTime (sampleLocal 4)) ∧
      (Value.dateTime (sampleLocal 4)).NotAfter (.dateTime (sampleLocal 5)) ∧
      (Value.dateTime sampleInstant).NotAfter (.dateTime (sampleLocal 5)) := by
  have hsame : (Value.dateTime sampleInstant).NotAfter (.dateTime (sampleLocal 4)) :=
    ⟨.eq, by decide, nofun⟩
  have hlater : (Value.dateTime (sampleLocal 4)).NotAfter (.dateTime (sampleLocal 5)) :=
    ⟨.lt, by decide, nofun⟩
  exact ⟨hsame, hlater, comparison_is_preorder.2.2.1 _ _ _ hsame hlater⟩

end Filter

/-! ## Ties -/

/-- Neither of two compared values comes before the other. -/
structure Ties (holds : Relation → Bool) : Prop where
  le : holds .le = true
  ge : holds .ge = true
  not_lt : holds .lt = false
  not_gt : holds .gt = false

theorem Relation.ties_iff :
    Ties (fun relation => relation.holds found given) ↔ found.compare? given = some .eq := by
  constructor
  · intro h
    obtain ⟨o, ho⟩ := Option.ne_none_iff_exists'.1 (holds_le_iff.1 h.le).1
    have hlt := ne_of_beq_false h.not_lt
    have hgt := ne_of_beq_false h.not_gt
    cases o with
    | eq => exact ho
    | lt => exact absurd ho hlt
    | gt => exact absurd ho hgt
  · intro heq
    constructor <;> simp only [holds, heq] <;> rfl

namespace Filter

variable {α : Type} [Tagged α] {record : α} {resolver : Resolver} {path : Path}

theorem includes_compare_of_resolve (h : path.resolve record resolver = some found)
    (relation : Relation) :
    (compare relation path given).includes record resolver = relation.holds found given := by
  rw [includes, h, Option.any_some]

/-- Equal values tie, but for not-a-number, which compares with nothing, and for two lists
that differ in what their refs display or in the signs of their zeros. -/
theorem equal_values_tie :
    (∀ a b : Value, a.same b = true →
      (a.compare? b = some .eq ↔ a ≠ .ofDouble .nan ∧ (a.kind = .list → a = b))) ∧
    ∀ {α : Type} [Tagged α] (record : α) (resolver : Resolver) (path : Path) (given : Value),
      (compare .eq path given).includes record resolver = true →
      (Ties (fun relation => (compare relation path given).includes record resolver) ↔
        given ≠ .ofDouble .nan ∧
          (given.kind = .list → path.resolve record resolver = some given)) := by
  refine ⟨fun a b => Value.compare?_eq_iff_of_same, fun record resolver path given h => ?_⟩
  obtain ⟨found, hfound, hholds⟩ := includes_compare_iff.1 h
  have hsame : found.same given = true := hholds
  have hnan : found = .ofDouble .nan ↔ given = .ofDouble .nan := by
    rw [← Value.class?_eq_none_iff, ← Value.class?_eq_none_iff, Value.class?_of_same hsame]
  simp only [includes_compare_of_resolve hfound]
  rw [Relation.ties_iff, Value.compare?_eq_iff_of_same hsame, Value.kind_eq_of_same hsame, hfound,
    Option.some.injEq, ne_eq, hnan]

/-- A record with a value in the tag `equip`. -/
def sampleTag (value : Value) : Dict := Dict.empty.set ⟨"equip", by decide⟩ value

/-- The tag `equip` of a record. -/
def samplePath : Path := ⟨["equip"], by decide, by decide⟩

/-- The two zeros tie. -/
theorem zeros_tie :
    (Value.ofDouble (.zero true)).same (.ofDouble (.zero false)) = true ∧
      (Value.ofDouble (.zero true)).compare? (.ofDouble (.zero false)) = some .eq ∧
      Ties fun relation => (compare relation samplePath (.ofDouble (.zero false))).includes
        (sampleTag (.ofDouble (.zero true))) .none := by
  have hsame : (Value.ofDouble (.zero true)).same (.ofDouble (.zero false)) = true := rfl
  have hincludes : (compare .eq samplePath (.ofDouble (.zero false))).includes
      (sampleTag (.ofDouble (.zero true))) .none = true := rfl
  exact ⟨hsame, (equal_values_tie.1 _ _ hsame).2 ⟨nofun, nofun⟩,
    (equal_values_tie.2 _ _ _ _ hincludes).2 ⟨nofun, nofun⟩⟩

/-- A list with a ref that displays a text. -/
def sampleList (display : String) : Value := .list [.ref ⟨"fan-1", some display, by decide⟩]

/-- Lists with one and the same ref in them, which displays different texts, are equal, and
one of them comes before the other. -/
theorem equal_lists_are_ordered :
    (sampleList "x").same (sampleList "y") = true ∧
      (sampleList "x").everywhere (fun v => v.double? != some .nan) = true ∧
      (sampleList "y").everywhere (fun v => v.double? != some .nan) = true ∧
      (sampleList "x").compare? (sampleList "y") = some .lt ∧
      ∃ record : Dict,
        (compare .eq samplePath (sampleList "y")).includes record .none = true ∧
        (compare .lt samplePath (sampleList "y")).includes record .none = true ∧
        (compare .ge samplePath (sampleList "y")).includes record .none = false := by
  have hcompare : (sampleList "x").compare? (sampleList "y") = some .lt := by decide
  exact ⟨rfl, rfl, rfl, hcompare, sampleTag (sampleList "x"), rfl, rfl, rfl⟩

end Filter

end TagGrid
