import Mathlib.Data.Option.Basic
import TagGrid.Proofs.Dict.Draft

/-! # Equality as an equivalence

Values are equal across the two zeros, not-a-number and the texts that refs display, and
nothing else. Dictionaries are equal if their answers are, and so are the rows of grids:
the order of the columns and the blank cells do not matter. Equality tests only that the
sizes agree and that the one side has what the other side has, but this is an equivalence
of values, dictionaries, rows and grids alike.
-/

namespace TagGrid

/-! ## Values -/

theorem Number.same_iff {m n : Number} :
    m.same n = true ↔ m.value.place? = n.value.place? ∧ m.unit = n.unit := by
  simp only [Number.same, Double.same, Bool.and_eq_true, beq_iff_eq]

theorem Ref.same_iff {r s : Ref} : r.same s = true ↔ r.id = s.id := beq_iff_eq

/-- Equal values that are not the same are numbers, refs or lists. -/
theorem Value.same_iff {a b : Value} : a.same b = true ↔
    a = b ∨ (∃ m n : Number, a = .number m ∧ b = .number n ∧ m.same n = true) ∨
      (∃ r s : Ref, a = .ref r ∧ b = .ref s ∧ r.same s = true) ∨
      ∃ xs ys, a = .list xs ∧ b = .list ys ∧ Value.sameItems xs ys = true := by
  constructor
  · intro h
    rw [Value.same.eq_def] at h
    split at h
    case h_17 => cases h
    case h_5 m n => exact .inr (.inl ⟨m, n, rfl, rfl, h⟩)
    case h_8 r s => exact .inr (.inr (.inl ⟨r, s, rfl, rfl, h⟩))
    case h_15 xs ys => exact .inr (.inr (.inr ⟨xs, ys, rfl, rfl, h⟩))
    all_goals first | exact .inl rfl | exact .inl (congrArg _ (eq_of_beq h))
  · rintro (rfl | ⟨m, n, rfl, rfl, h⟩ | ⟨r, s, rfl, rfl, h⟩ | ⟨xs, ys, rfl, rfl, h⟩)
    · exact a.same_refl
    · exact h
    · exact h
    · exact h

theorem Value.sameItems_cons {x y : Value} {xs ys : List Value} :
    Value.sameItems (x :: xs) (y :: ys) = true ↔
      x.same y = true ∧ Value.sameItems xs ys = true :=
  Bool.and_eq_true_iff

mutual

theorem Value.same_symm (a b : Value) (h : a.same b = true) : b.same a = true := by
  rcases Value.same_iff.1 h with
    rfl | ⟨m, n, rfl, rfl, h⟩ | ⟨r, s, rfl, rfl, h⟩ | ⟨xs, ys, rfl, rfl, h⟩
  · exact a.same_refl
  · have hsame := Number.same_iff.1 h
    exact Number.same_iff.2 ⟨hsame.1.symm, hsame.2.symm⟩
  · exact Ref.same_iff.2 (Ref.same_iff.1 h).symm
  · exact Value.sameItems_symm xs ys h
termination_by sizeOf a

theorem Value.sameItems_symm (xs ys : List Value) (h : Value.sameItems xs ys = true) :
    Value.sameItems ys xs = true := by
  cases xs with
  | nil =>
    cases ys with
    | nil => rfl
    | cons => cases h
  | cons x xs =>
    cases ys with
    | nil => cases h
    | cons y ys =>
      obtain ⟨hx, hxs⟩ := Value.sameItems_cons.1 h
      exact Value.sameItems_cons.2 ⟨Value.same_symm x y hx, Value.sameItems_symm xs ys hxs⟩
termination_by sizeOf xs

end

mutual

theorem Value.same_trans (a b c : Value) (hab : a.same b = true) (hbc : b.same c = true) :
    a.same c = true := by
  rcases Value.same_iff.1 hab with
    rfl | ⟨m, n, rfl, rfl, h⟩ | ⟨r, s, rfl, rfl, h⟩ | ⟨xs, ys, rfl, rfl, h⟩
  · exact hbc
  · cases c with
    | number o =>
      have hmn := Number.same_iff.1 h
      have hno := Number.same_iff.1 hbc
      exact Number.same_iff.2 ⟨hmn.1.trans hno.1, hmn.2.trans hno.2⟩
    | _ => cases hbc
  · cases c with
    | ref t => exact Ref.same_iff.2 ((Ref.same_iff.1 h).trans (Ref.same_iff.1 hbc))
    | _ => cases hbc
  · cases c with
    | list zs => exact Value.sameItems_trans xs ys zs h hbc
    | _ => cases hbc
termination_by sizeOf a

theorem Value.sameItems_trans (xs ys zs : List Value) (hxy : Value.sameItems xs ys = true)
    (hyz : Value.sameItems ys zs = true) : Value.sameItems xs zs = true := by
  cases xs with
  | nil =>
    cases ys with
    | nil => exact hyz
    | cons => cases hxy
  | cons x xs =>
    cases ys with
    | nil => cases hxy
    | cons y ys =>
      cases zs with
      | nil => cases hyz
      | cons z zs =>
        obtain ⟨hx, hxs⟩ := Value.sameItems_cons.1 hxy
        obtain ⟨hy, hys⟩ := Value.sameItems_cons.1 hyz
        exact Value.sameItems_cons.2
          ⟨Value.same_trans x y z hx hy, Value.sameItems_trans xs ys zs hxs hys⟩
termination_by sizeOf xs

end

theorem Value.equivalence_same : Equivalence fun a b : Value => a.same b = true :=
  ⟨Value.same_refl, fun h => Value.same_symm _ _ h, fun h h' => Value.same_trans _ _ _ h h'⟩

/-! ## Answers for a name -/

/-- Both names have equal values, or neither has one. -/
def SameAnswer : Option Value → Option Value → Prop := Option.Rel fun v w => v.same w = true

theorem equivalence_sameAnswer : Equivalence SameAnswer where
  refl answer := by
    cases answer with
    | none => exact .none
    | some v => exact .some v.same_refl
  symm h := by
    cases h with
    | none => exact .none
    | some h => exact .some (Value.equivalence_same.symm h)
  trans h h' := by
    cases h with
    | none => exact h'
    | some h =>
      cases h' with
      | some h' => exact .some (Value.equivalence_same.trans h h')

theorem sameAnswer_some_iff {v : Value} {answer : Option Value} :
    SameAnswer (some v) answer ↔ ∃ w, answer = some w ∧ v.same w = true := by
  constructor
  · intro h
    cases h with
    | some h => exact ⟨_, rfl, h⟩
  · rintro ⟨w, rfl, h⟩
    exact .some h

theorem SameAnswer.isSome_eq {x y : Option Value} (h : SameAnswer x y) :
    x.isSome = y.isSome := by
  cases h with
  | none => rfl
  | some => rfl

/-- Whether the answers to the names of all entries equal the values there. -/
def allAnswered (get? : String → Option Value) (entries : List (TagName × Value)) : Bool :=
  entries.all fun e =>
    match get? e.1.text with
    | some value => e.2.same value
    | none => false

theorem allAnswered_iff {get? : String → Option Value} {entries : List (TagName × Value)} :
    allAnswered get? entries = true ↔
      ∀ e ∈ entries, SameAnswer (some e.2) (get? e.1.text) := by
  unfold allAnswered
  rw [List.all_eq_true]
  refine forall₂_congr fun e _ => ?_
  rw [sameAnswer_some_iff]
  cases get? e.1.text <;> simp

/-! ## Dictionaries -/

namespace Dict

variable {a b : Dict}

theorem same_eq (a b : Dict) :
    a.same b = (a.size == b.size && allAnswered b.get? a.entries) := rfl

/-- Dictionaries are equal if they answer alike for every name. -/
theorem same_iff : a.same b = true ↔ ∀ name, SameAnswer (a.get? name) (b.get? name) := by
  constructor
  · intro h name
    have hhas : a.has name = b.has name := has_of_same h
    rw [same_eq, Bool.and_eq_true_iff] at h
    cases hget : a.get? name with
    | some v =>
      obtain ⟨n, rfl, hmem⟩ := get?_eq_some_iff.1 hget
      exact allAnswered_iff.1 h.2 _ hmem
    | none =>
      rw [has, has, hget] at hhas
      cases hother : b.get? name with
      | none => exact .none
      | some w =>
        rw [hother] at hhas
        cases hhas
  · intro h
    have hmem (text : String) : text ∈ (a.entries.map fun e => e.1.text) ↔
        text ∈ b.entries.map fun e => e.1.text := by
      rw [← has_iff_mem, ← has_iff_mem, has, has, (h text).isSome_eq]
    have hperm := (List.perm_ext_iff_of_nodup a.nodup_texts b.nodup_texts).2 hmem
    have hsize : a.entries.length = b.entries.length := by simpa using hperm.length_eq
    rw [same_eq, Bool.and_eq_true_iff]
    refine ⟨beq_iff_eq.2 hsize, allAnswered_iff.2 fun e he => ?_⟩
    rw [← get?_of_mem he]
    exact h e.1.text

theorem equivalence_same : Equivalence fun a b : Dict => a.same b = true where
  refl := same_refl
  symm h := same_iff.2 fun name => equivalence_sameAnswer.symm (same_iff.1 h name)
  trans h h' := same_iff.2 fun name =>
    equivalence_sameAnswer.trans (same_iff.1 h name) (same_iff.1 h' name)

end Dict

theorem Column.equivalence_same : Equivalence fun c d : Column => c.same d = true where
  refl := same_refl
  symm h := by
    obtain ⟨hname, htags⟩ := Bool.and_eq_true_iff.1 h
    exact Bool.and_eq_true_iff.2
      ⟨beq_iff_eq.2 (eq_of_beq hname).symm, Dict.equivalence_same.symm htags⟩
  trans h h' := by
    obtain ⟨hname, htags⟩ := Bool.and_eq_true_iff.1 h
    obtain ⟨hname', htags'⟩ := Bool.and_eq_true_iff.1 h'
    exact Bool.and_eq_true_iff.2 ⟨beq_iff_eq.2 ((eq_of_beq hname).trans (eq_of_beq hname')),
      Dict.equivalence_same.trans htags htags'⟩

/-! ## Rows -/

namespace Row

/-- The rows that a grid has: their columns have names of their own, and there is a cell
below each of them. -/
def InGrid (r : Row) : Prop := ∃ g : Grid, r ∈ g.rowViews

variable {r s : Row}

theorem same_eq (r s : Row) : r.same s = (r.size == s.size && allAnswered s.get? r.tags) := rfl

theorem InGrid.distinct (h : r.InGrid) : (r.columns.map Column.name).Nodup := by
  obtain ⟨g, hr⟩ := h
  obtain ⟨cells, -, rfl⟩ := List.mem_map.1 hr
  exact g.distinct

theorem InGrid.rectangular (h : r.InGrid) : r.cells.length = r.columns.length := by
  obtain ⟨g, hr⟩ := h
  obtain ⟨cells, hcells, rfl⟩ := List.mem_map.1 hr
  exact g.rectangular cells hcells

theorem InGrid.same_refl (h : r.InGrid) : r.same r = true :=
  Row.same_refl h.distinct h.rectangular

/-- The names of the tags are the names of the columns, less those of blank cells. -/
theorem tags_sublist (columns : List Column) (cells : List (Option Value)) :
    ((⟨columns, cells⟩ : Row).tags.map Prod.fst).Sublist (columns.map Column.name) := by
  unfold tags
  induction columns generalizing cells with
  | nil => exact List.Sublist.refl []
  | cons c columns ih =>
    cases cells with
    | nil => exact List.nil_sublist _
    | cons cell cells =>
      cases cell with
      | none => exact (ih cells).cons c.name
      | some v => exact (ih cells).cons_cons c.name

theorem InGrid.nodup_tags (h : r.InGrid) : (r.tags.map Prod.fst).Nodup :=
  h.distinct.sublist (tags_sublist r.columns r.cells)

theorem length_tags {columns : List Column} {cells : List (Option Value)}
    (h : cells.length = columns.length) :
    (⟨columns, cells⟩ : Row).tags.length = (⟨columns, cells⟩ : Row).size := by
  unfold tags size
  induction columns generalizing cells with
  | nil =>
    cases List.eq_nil_of_length_eq_zero h
    rfl
  | cons c columns ih =>
    cases cells with
    | nil => cases h
    | cons cell cells =>
      have hrest := ih (Nat.succ.inj h)
      cases cell with
      | none => simpa using hrest
      | some v => simpa using hrest

theorem InGrid.get?_eq_some_iff (h : r.InGrid) {name : String} {value : Value} :
    r.get? name = some value ↔ ∃ n : TagName, n.text = name ∧ (n, value) ∈ r.tags := by
  constructor
  · intro hget
    obtain ⟨⟨c, cell⟩, hfind, hcell⟩ := Option.bind_eq_some_iff.1 hget
    have hname := List.find?_some hfind
    obtain rfl : cell = some value := hcell
    exact ⟨c.name, eq_of_beq hname,
      List.mem_filterMap.2 ⟨_, List.mem_of_find?_eq_some hfind, rfl⟩⟩
  · rintro ⟨n, rfl, hmem⟩
    exact get?_of_mem h.distinct h.rectangular hmem

/-- The draft of the dictionary, to which the tags are added one by one. -/
theorem toDict_eq_foldl (r : Row) :
    r.toDict = (r.tags.foldl (fun b e => b.set e.1 e.2) DictDraft.empty).freeze := by
  rw [DictDraft.freeze_foldl_set, DictDraft.freeze_empty]
  rfl

/-- A row answers like its dictionary. -/
theorem InGrid.get?_toDict (h : r.InGrid) (name : String) : r.toDict.get? name = r.get? name := by
  rw [toDict_eq_foldl, DictDraft.get?_freeze, DictDraft.get?_foldl_set h.nodup_tags]
  ext value
  show (Option.or _ none) = some value ↔ _
  rw [Option.or_none, find?_entry_eq_some_iff h.nodup_tags, h.get?_eq_some_iff]

theorem InGrid.perm_toDict (h : r.InGrid) : r.toDict.entries.Perm r.tags := by
  refine (List.perm_ext_iff_of_nodup r.toDict.nodup_names.of_map h.nodup_tags.of_map).2 ?_
  intro e
  rw [Dict.mem_entries_iff, h.get?_toDict, h.get?_eq_some_iff]
  constructor
  · rintro ⟨n, hname, hmem⟩
    rwa [TagName.text_injective hname] at hmem
  · intro hmem
    exact ⟨e.1, rfl, hmem⟩

theorem InGrid.size_toDict (h : r.InGrid) : r.toDict.size = r.size :=
  h.perm_toDict.length_eq.trans (length_tags h.rectangular)

/-- The test of rows finds what the test of their dictionaries finds. -/
theorem InGrid.same_eq (hr : r.InGrid) (hs : s.InGrid) : r.same s = r.toDict.same s.toDict := by
  have hsize : (r.toDict.size == s.toDict.size) = (r.size == s.size) := by
    rw [hr.size_toDict, hs.size_toDict]
  have hanswers : s.toDict.get? = s.get? := funext hs.get?_toDict
  have hall : allAnswered s.toDict.get? r.toDict.entries = allAnswered s.get? r.tags := by
    rw [hanswers]
    exact hr.perm_toDict.all_eq
  rw [Row.same_eq, Dict.same_eq, hsize, hall]

theorem equivalence_same :
    Equivalence fun r s : { r : Row // r.InGrid } => r.1.same s.1 = true where
  refl r := r.2.same_refl
  symm {r s} h := by
    rw [r.2.same_eq s.2] at h
    rw [s.2.same_eq r.2]
    exact Dict.equivalence_same.symm h
  trans {r s t} h h' := by
    rw [r.2.same_eq s.2] at h
    rw [s.2.same_eq t.2] at h'
    rw [r.2.same_eq t.2]
    exact Dict.equivalence_same.trans h h'

end Row

/-! ## Grids -/

theorem equivalence_forall₂ {α : Type} {r : α → α → Prop} (h : Equivalence r) :
    Equivalence (List.Forall₂ r) where
  refl xs := List.forall₂_same.2 fun x _ => h.refl x
  symm hxy := hxy.flip.imp fun _ _ => h.symm
  trans {xs ys zs} hxy hyz := by
    induction hxy generalizing zs with
    | nil => exact hyz
    | cons hx _ ih =>
      cases hyz with
      | cons hy hyz => exact .cons (h.trans hx hy) (ih hyz)

namespace Grid

variable {g h : Grid}

theorem pairwise_iff {α : Type} {related : α → α → Bool} {xs ys : List α} :
    pairwise related xs ys = true ↔ List.Forall₂ (fun x y => related x y = true) xs ys := by
  rw [List.forall₂_iff_zip]
  unfold pairwise
  simp only [Bool.and_eq_true, beq_iff_eq, List.all_eq_true, Prod.forall]

theorem inGrid_of_mem {r : Row} (hr : r ∈ g.rowViews) : r.InGrid := ⟨g, hr⟩

/-- Rows are equal pairwise if their dictionaries are. -/
theorem pairwise_rows_iff : pairwise Row.same g.rowViews h.rowViews = true ↔
    List.Forall₂ (fun a b => a.same b = true) g.toDicts h.toDicts := by
  unfold toDicts
  rw [pairwise_iff, List.forall₂_map_left_iff, List.forall₂_map_right_iff,
    List.forall₂_iff_zip, List.forall₂_iff_zip]
  refine and_congr_right fun _ => forall_congr' fun r => forall_congr' fun s => ?_
  refine forall_congr' fun hmem => ?_
  obtain ⟨hr, hs⟩ := List.of_mem_zip hmem
  rw [(inGrid_of_mem hr).same_eq (inGrid_of_mem hs)]

theorem same_iff : g.same h = true ↔
    g.tags.same h.tags = true ∧
      List.Forall₂ (fun c d => c.same d = true) g.columns h.columns ∧
      List.Forall₂ (fun a b => a.same b = true) g.toDicts h.toDicts := by
  unfold same
  rw [Bool.and_eq_true_iff, Bool.and_eq_true_iff, pairwise_iff, pairwise_rows_iff, and_assoc]

theorem equivalence_same : Equivalence fun g h : Grid => g.same h = true where
  refl := same_refl
  symm hgh := by
    obtain ⟨htags, hcolumns, hrows⟩ := same_iff.1 hgh
    exact same_iff.2 ⟨Dict.equivalence_same.symm htags,
      (equivalence_forall₂ Column.equivalence_same).symm hcolumns,
      (equivalence_forall₂ Dict.equivalence_same).symm hrows⟩
  trans hgh hhi := by
    obtain ⟨htags, hcolumns, hrows⟩ := same_iff.1 hgh
    obtain ⟨htags', hcolumns', hrows'⟩ := same_iff.1 hhi
    exact same_iff.2 ⟨Dict.equivalence_same.trans htags htags',
      (equivalence_forall₂ Column.equivalence_same).trans hcolumns hcolumns',
      (equivalence_forall₂ Dict.equivalence_same).trans hrows hrows'⟩

end Grid

/-- Two rows of any grids are equal exactly if their dictionaries are, and so equality is an
equivalence of all rows that grids have, as it is of grids. -/
theorem rows_equal_as_dicts :
    (∀ (g h : Grid) (r s : Row), r ∈ g.rowViews → s ∈ h.rowViews →
      (r.same s = true ↔ r.toDict.same s.toDict = true)) ∧
    Equivalence (fun r s : { r : Row // r.InGrid } => r.1.same s.1 = true) ∧
    Equivalence (fun g h : Grid => g.same h = true) := by
  refine ⟨fun g h r s hr hs => ?_, Row.equivalence_same, Grid.equivalence_same⟩
  rw [(Grid.inGrid_of_mem hr).same_eq (Grid.inGrid_of_mem hs)]

def sampleWide : Grid where
  tags := .empty
  columns := [⟨⟨"id", rfl⟩, .empty⟩, ⟨⟨"dis", rfl⟩, .empty⟩, ⟨⟨"area", rfl⟩, .empty⟩]
  rows := [[some (.ref ⟨"a", none, rfl⟩), none, some (.number (.plain .nan))]]
  nonempty := by simp
  distinct := by decide
  rectangular := by simp

/-- The same row without the blank cell, the other way around, and with a ref that displays
a text. -/
def sampleNarrow : Grid where
  tags := .empty
  columns := [⟨⟨"area", rfl⟩, .empty⟩, ⟨⟨"id", rfl⟩, .empty⟩]
  rows := [[some (.number (.plain .nan)), some (.ref ⟨"a", some "Attic", rfl⟩)]]
  nonempty := by simp
  distinct := by decide
  rectangular := by simp

theorem sample_rows_equal_as_dicts : ∃ r s : Row, r ∈ sampleWide.rowViews ∧
    s ∈ sampleNarrow.rowViews ∧ r.same s = true ∧ r.toDict.same s.toDict = true := by
  refine ⟨_, _, List.mem_cons_self, List.mem_cons_self, rfl, ?_⟩
  exact (rows_equal_as_dicts.1 sampleWide sampleNarrow _ _ List.mem_cons_self
    List.mem_cons_self).1 rfl

end TagGrid
