import TagGrid.Filter.Basic
import TagGrid.Proofs.Grid.Equivalence

/-! # What filters depend on

A filter knows of a record only what its paths lead to. So it does not tell a row from the
dictionary of the row, a filter that follows no refs does not depend on the resolver, and
without `not` what is known of more tags and more records can only make a filter hold.
-/

namespace TagGrid

variable {α β : Type} [Tagged α] [Tagged β]

/-- A record that has every tag of another record, with the same value. -/
def Tagged.Extends (more : β) (less : α) : Prop :=
  ∀ name value, Tagged.tag? less name = some value → Tagged.tag? more name = some value

/-- A resolver that finds every record that another resolver finds. -/
def Resolver.Extends (more less : Resolver) : Prop :=
  ∀ ref record, less ref = some record → more ref = some record

theorem Tagged.extends_set {d : Dict} {n : TagName} (h : d.get? n.text = none) (value : Value) :
    Tagged.Extends (d.set n value) d := by
  intro name found hfound
  have hname : n.text ≠ name := by
    rintro rfl
    cases h.symm.trans hfound
  exact (Dict.get?_set n value).trans ((if_neg hname).trans hfound)

theorem Resolver.extends_ofTable_append (added table : List (String × Dict)) :
    (ofTable (added ++ table)).Extends (ofTable table) := by
  intro ref record h
  obtain ⟨e, he, hrecord⟩ := Option.map_eq_some_iff.1 h
  unfold ofTable
  rw [List.reverse_append, List.find?_append, he]
  exact congrArg some hrecord

/-! ## Paths -/

namespace Path

variable {p : Path} {record less : α} {other more : β} {resolver known : Resolver} {value : Value}

theorem resolve_eq_bind (p : Path) (record : α) (resolver : Resolver) :
    p.resolve record resolver = (p.segments.head?.bind (Tagged.tag? record)).bind fun value =>
      follow resolver value p.segments.tail := by
  unfold resolve
  cases p.segments <;> rfl

/-- A path asks a record for one tag. -/
theorem resolve_congr (h : ∀ name, Tagged.tag? record name = Tagged.tag? other name)
    (p : Path) (resolver : Resolver) : p.resolve record resolver = p.resolve other resolver := by
  rw [resolve_eq_bind, resolve_eq_bind, funext h]

/-- A path of one segment follows no ref. -/
theorem resolve_of_size (h : p.size = 1) (record : α) (resolver known : Resolver) :
    p.resolve record resolver = p.resolve record known := by
  obtain ⟨segment, hsegment⟩ := List.length_eq_one_iff.1 h
  unfold resolve
  rw [hsegment]
  rfl

theorem follow_extends (h : known.Extends resolver) {segments : List String} {start : Value}
    (hvalue : follow resolver start segments = some value) :
    follow known start segments = some value := by
  induction segments generalizing start with
  | nil => exact hvalue
  | cons segment rest ih =>
    -- a step asks the resolver once, and that answer is known, too
    simp only [follow, Option.bind_eq_bind, Option.bind_eq_some_iff] at hvalue ⊢
    obtain ⟨ref, href, record, hrecord, next, hnext, hrest⟩ := hvalue
    exact ⟨ref, href, record, h ref record hrecord, next, hnext, ih hrest⟩

/-- What a path leads to, it leads to when more is known. -/
theorem resolve_extends (hrecord : Tagged.Extends more less) (hresolver : known.Extends resolver)
    (h : p.resolve less resolver = some value) : p.resolve more known = some value := by
  rw [resolve_eq_bind, Option.bind_eq_some_iff] at h ⊢
  obtain ⟨start, hstart, hvalue⟩ := h
  obtain ⟨first, hfirst, htag⟩ := Option.bind_eq_some_iff.1 hstart
  refine ⟨start, ?_, follow_extends hresolver hvalue⟩
  rw [hfirst]
  exact hrecord first start htag

end Path

/-! ## Filters -/

namespace Filter

variable {f : Filter} {record less : α} {other more : β} {resolver known : Resolver}

/-- The paths of a filter. -/
def paths : Filter → List Path
  | has path | missing path | compare _ path _ => [path]
  | and left right | or left right => left.paths ++ right.paths

/-- Whether a filter asks nowhere that a path lead to nothing. -/
def isPositive : Filter → Bool
  | has _ | compare .. => true
  | missing _ => false
  | and left right | or left right => left.isPositive && right.isPositive

theorem includes_compare_iff {relation : Relation} {path : Path} {given : Value} :
    (compare relation path given).includes record resolver = true ↔
      ∃ found, path.resolve record resolver = some found ∧ relation.holds found given = true := by
  rw [includes, Option.any_eq_true]

/-- A filter depends on what its paths lead to. -/
theorem includes_congr (h : ∀ p ∈ f.paths, p.resolve record resolver = p.resolve other known) :
    f.includes record resolver = f.includes other known := by
  induction f with
  | has path | missing path | compare _ path _ =>
    rw [includes, includes, h path List.mem_cons_self]
  | and left right ihl ihr | or left right ihl ihr =>
    rw [includes, includes, ihl fun p hp => h p (List.mem_append_left _ hp),
      ihr fun p hp => h p (List.mem_append_right _ hp)]

/-- A positive filter goes on to hold as long as its paths lead where they led. -/
theorem includes_mono (hpositive : f.isPositive = true)
    (h : ∀ p ∈ f.paths, ∀ value, p.resolve less resolver = some value →
      p.resolve more known = some value)
    (hincludes : f.includes less resolver = true) : f.includes more known = true := by
  induction f with
  | has path =>
    obtain ⟨value, hvalue⟩ := Option.isSome_iff_exists.1 hincludes
    exact Option.isSome_of_eq_some (h path List.mem_cons_self value hvalue)
  | missing path => cases hpositive
  | compare relation path given =>
    obtain ⟨value, hvalue, hholds⟩ := includes_compare_iff.1 hincludes
    exact includes_compare_iff.2 ⟨value, h path List.mem_cons_self value hvalue, hholds⟩
  | and left right ihl ihr =>
    obtain ⟨hl, hr⟩ := Bool.and_eq_true_iff.1 hpositive
    obtain ⟨hleft, hright⟩ := Bool.and_eq_true_iff.1 hincludes
    exact Bool.and_eq_true_iff.2 ⟨ihl hl (fun p hp => h p (List.mem_append_left _ hp)) hleft,
      ihr hr (fun p hp => h p (List.mem_append_right _ hp)) hright⟩
  | or left right ihl ihr =>
    obtain ⟨hl, hr⟩ := Bool.and_eq_true_iff.1 hpositive
    refine Bool.or_eq_true_iff.2 ((Bool.or_eq_true_iff.1 hincludes).imp ?_ ?_)
    · exact ihl hl fun p hp => h p (List.mem_append_left _ hp)
    · exact ihr hr fun p hp => h p (List.mem_append_right _ hp)

/-- Filters and paths find the same in a row of a grid and in the dictionary of the row. -/
theorem rows_pass_as_dicts (g : Grid) (row : Row) (hrow : row ∈ g.rowViews)
    (resolver : Resolver) :
    (∀ f : Filter, f.includes row resolver = f.includes row.toDict resolver) ∧
      ∀ p : Path, p.resolve row resolver = p.resolve row.toDict resolver := by
  have htags : ∀ name, Tagged.tag? row name = Tagged.tag? row.toDict name :=
    fun name => ((Grid.inGrid_of_mem hrow).get?_toDict name).symm
  have hpaths := fun p => Path.resolve_congr htags p resolver
  exact ⟨fun f => includes_congr fun p _ => hpaths p, hpaths⟩

/-- The records that `a` and `b` name. -/
def sampleTable : List (String × Dict) :=
  [("b", .empty), ("a", Dict.empty.set ⟨"ahu", by decide⟩ .marker)]

/-- There is no text to display, and the ref in `id` leads to an air handler. -/
def sampleQuery : Filter :=
  .and (.missing ⟨["dis"], by decide, by decide⟩) (.has ⟨["id", "ahu"], by decide, by decide⟩)

theorem sampleWide_passes_as_dict : ∃ row ∈ sampleWide.rowViews,
    sampleQuery.includes row (.ofTable sampleTable) = true ∧
      sampleQuery.includes row.toDict (.ofTable sampleTable) = true := by
  refine ⟨_, List.mem_cons_self, rfl, ?_⟩
  rw [← (rows_pass_as_dicts sampleWide _ List.mem_cons_self (.ofTable sampleTable)).1 sampleQuery]
  rfl

/-- A filter that asks nowhere for what is missing holds of all that has more tags, and
where more records are known. One that follows no refs does not ask for records at all. -/
theorem positive_filters_are_monotone :
    (∀ {α β : Type} [Tagged α] [Tagged β] (f : Filter) (less : α) (more : β)
        (resolver known : Resolver), f.isPositive = true → Tagged.Extends more less →
      known.Extends resolver → f.includes less resolver = true →
      f.includes more known = true) ∧
    ∀ {α : Type} [Tagged α] (f : Filter) (record : α) (resolver known : Resolver),
      (∀ p ∈ f.paths, p.size = 1) → f.includes record resolver = f.includes record known := by
  refine ⟨fun f less more resolver known hpositive hrecord hresolver => ?_, ?_⟩
  · exact includes_mono hpositive fun p _ value => Path.resolve_extends hrecord hresolver
  · exact fun f record resolver known h =>
      includes_congr fun p hp => Path.resolve_of_size (h p hp) record resolver known

/-- A record with one more tag. -/
def sampleMore (record : Dict) : Dict := record.set ⟨"floor", by decide⟩ .marker

/-- The ref in `id` leads to an air handler, or there is a fan. -/
def samplePositive : Filter :=
  .or (.has ⟨["id", "ahu"], by decide, by decide⟩) (.has ⟨["fan"], by decide, by decide⟩)

theorem sampleWide_knows_more : ∃ row ∈ sampleWide.rowViews,
    Tagged.Extends (sampleMore row.toDict) row.toDict ∧
    (Resolver.ofTable sampleTable).Extends (.ofTable (sampleTable.drop 1)) ∧
    samplePositive.includes row.toDict (.ofTable (sampleTable.drop 1)) = true ∧
    samplePositive.includes (sampleMore row.toDict) (.ofTable sampleTable) = true ∧
    (Filter.missing ⟨["dis"], by decide, by decide⟩).includes row (.ofTable sampleTable) =
      (Filter.missing ⟨["dis"], by decide, by decide⟩).includes row .none := by
  have hresolver := Resolver.extends_ofTable_append (sampleTable.take 1) (sampleTable.drop 1)
  refine ⟨_, List.mem_cons_self, Tagged.extends_set rfl .marker, hresolver, rfl, ?_, ?_⟩
  · exact positive_filters_are_monotone.1 samplePositive _ _ _ _ rfl
      (Tagged.extends_set rfl .marker) hresolver rfl
  · exact positive_filters_are_monotone.2 _ _ _ _ (by simp [paths, Path.size])

end Filter

end TagGrid
