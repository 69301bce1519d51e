import TagGrid.Proofs.Filter.Levels
import TagGrid.Proofs.Filter.ReadBack
import TagGrid.Proofs.Zinc.Prolonged

/-! # Operands in front of more text

What is read as an operand of a filter is also read as that in front of a parenthesis or of
a word that joins. Blanks at the end of the text may have been taken or left before; they
count as well as those behind.
-/

namespace TagGrid.Filter

open Text Zinc Zinc.Outcome

/-- A text behind an operand: it goes on with no value at its end and with no comparison. -/
structure Separate (more : List Char) : Prop extends Detached more where
  relationless : splitRelation? (skipBlanks more) = none

variable {cs more inner rest : List Char} {setting : Setting} {f : Filter}

theorem separate_nil : Separate [] where
  follows := Follows.nil
  zoneless := nofun
  relationless := rfl

theorem separate_parenthesis (rest : List Char) : Separate (')' :: rest) where
  follows := Follows.cons (by decide) (by decide)
  zoneless := nofun
  relationless := by
    rw [skipBlanks_cons rest (by decide)]
    rfl

theorem separate_and (rest : List Char) : Separate (' ' :: (['a', 'n', 'd'] ++ rest)) where
  follows := (endsOperand_and rest).1
  zoneless := by
    rintro _ ⟨⟩
    exact Stops.cons (by decide)
  relationless := rfl

theorem separate_or (rest : List Char) : Separate (' ' :: (['o', 'r'] ++ rest)) where
  follows := (endsOperand_or rest).1
  zoneless := by
    rintro _ ⟨⟩
    exact Stops.cons (by decide)
  relationless := rfl

/-! ## Signs of comparisons -/

theorem splitRelation?_double (c : Char) (cs : List Char) :
    splitRelation? (c :: '=' :: cs) =
      if c = '=' then some (.eq, cs)
      else if c = '!' then some (.ne, cs)
      else if c = '<' then some (.le, cs)
      else if c = '>' then some (.ge, cs)
      else none := by
  split_ifs with heq hne hle hge
  · rw [heq]
    rfl
  · rw [hne]
    rfl
  · rw [hle]
    rfl
  · rw [hge]
    rfl
  · simp [splitRelation?, heq, hne, hle, hge]

theorem splitRelation?_single (h : cs.head? ≠ some '=') (c : Char) :
    splitRelation? (c :: cs) =
      if c = '<' then some (.lt, cs) else if c = '>' then some (.gt, cs) else none := by
  unfold splitRelation?
  split <;> simp_all

/-- A comparison starts with one of few signs, of which none stands behind an operand. -/
theorem splitRelation?_behind (h : Follows more) (cs : List Char) :
    splitRelation? (cs ++ more) = (splitRelation? cs).map fun r => (r.1, r.2 ++ more) := by
  have hstops : Stops (fun c => ['=', '!', '<', '>'].contains c) more := h.stops (by decide)
  have hequals : more.head? ≠ some '=' := fun hhead => absurd (hstops '=' hhead) (by decide)
  cases cs with
  | nil =>
    cases more with
    | nil => rfl
    | cons c more =>
      have hc := hstops c rfl
      simp only [List.contains_cons, List.contains_nil, Bool.or_false, Bool.or_eq_false_iff,
        beq_eq_false_iff_ne] at hc
      simp [splitRelation?, hc]
  | cons c cs =>
    by_cases hcs : cs.head? = some '='
    · obtain ⟨cs', rfl⟩ := List.head?_eq_some_iff.1 hcs
      rw [List.cons_append, List.cons_append, splitRelation?_double, splitRelation?_double]
      split_ifs <;> rfl
    · have hmore : (cs ++ more).head? ≠ some '=' := by
        cases cs with
        | nil => exact hequals
        | cons d cs => exact hcs
      rw [List.cons_append, splitRelation?_single hcs, splitRelation?_single hmore]
      split_ifs <;> rfl

/-! ## Paths and comparisons -/

theorem prolonged_readSegment (hmore : Stops isNameChar more) (cs : List Char) :
    Prolonged more (readSegment cs) (readSegment (cs ++ more)) := by
  cases cs with
  | nil => exact prolonged_failHere
  | cons c cs =>
    unfold readSegment readNameOr
    simp only [List.cons_append]
    split
    · rw [← List.cons_append, hmore.takeWhile_behind, hmore.dropWhile_behind]
      exact prolonged_ok _ _
    · exact prolonged_failHere

theorem prolonged_readSegments (h : Follows more) (cs : List Char) :
    Prolonged more (readSegments cs) (readSegments (cs ++ more)) := by
  have hsegment : ∀ cs, Prolonged more (readSegment cs) (readSegment (cs ++ more)) :=
    prolonged_readSegment (h.stops (by decide))
  fun_induction readSegments cs with
  | case1 => exact prolonged_fail
  | case2 cs segment rest hread ih =>
    rw [readSegments_arrow (hsegment cs _ _ hread)]
    exact ih.map _
  | case3 => exact prolonged_failHere
  | case4 cs segment rest _ hdash hread =>
    have harrow : (rest ++ more).head? ≠ some '-' := by
      intro hhead
      cases rest with
      | nil =>
        obtain ⟨more', hmore⟩ := List.head?_eq_some_iff.1 hhead
        exact h.head_ne (by decide) more' hmore
      | cons c rest =>
        cases hhead
        exact hdash rest rfl
    rw [readSegments_end (hsegment cs _ _ hread) harrow]
    exact prolonged_ok _ _

theorem prolonged_readPath (h : Follows more) (cs : List Char) :
    Prolonged more (readPath cs) (readPath (cs ++ more)) :=
  (prolonged_readSegments h cs).bind fun _ rest _ => prolonged_check _ _ rest _

theorem readBehindPath_has (path : Path) (h : splitRelation? (skipBlanks cs) = none) :
    readBehindPath setting path cs = ok (.has path) (skipBlanks cs) := by
  unfold readBehindPath
  rw [h]

theorem readBehindPath_compare (path : Path) {relation : Relation}
    (h : splitRelation? (skipBlanks cs) = some (relation, rest)) :
    readBehindPath setting path cs =
      (readValue setting (skipBlanks rest)).bind (compareWith relation path) := by
  unfold readBehindPath
  rw [h]

theorem prolonged_compareWith (relation : Relation) (path : Path) (value : Option Value)
    (rest : List Char) : Prolonged more (compareWith relation path value rest)
      (compareWith relation path value (rest ++ more)) := by
  cases value with
  | none => exact prolonged_failHere
  | some value => exact prolonged_ok _ rest

/-- A path alone takes the blanks behind it, also those of the text that follows. -/
theorem exists_readBehindPath_append (h : Separate more) {path : Path}
    (hread : readBehindPath setting path cs = ok f rest) :
    ∃ rest', readBehindPath setting path (cs ++ more) = ok f rest' ∧
      skipBlanks rest' = skipBlanks (rest ++ more) := by
  by_cases hskip : skipBlanks cs = []
  · have hnone : splitRelation? (skipBlanks cs) = none := by
      rw [hskip]
      rfl
    have hmore := skipBlanks_append_of_eq_nil hskip more
    rw [readBehindPath_has path hnone] at hread
    cases hread
    refine ⟨_, readBehindPath_has path (hmore ▸ h.relationless), ?_⟩
    rw [skipBlanks_skipBlanks, hmore, hskip, List.nil_append]
  · have hmore := skipBlanks_append hskip more
    have hsigns := splitRelation?_behind h.follows (skipBlanks cs)
    rw [← hmore] at hsigns
    cases hrelation : splitRelation? (skipBlanks cs) with
    | none =>
      rw [hrelation] at hsigns
      rw [readBehindPath_has path hrelation] at hread
      cases hread
      exact ⟨_, readBehindPath_has path hsigns, by rw [hmore]⟩
    | some r =>
      obtain ⟨relation, behind⟩ := r
      rw [hrelation] at hsigns
      rw [readBehindPath_compare path hrelation] at hread
      have hvalue : skipBlanks behind ≠ [] := by
        intro hnil
        rw [hnil, readValue.eq_def] at hread
        cases hread
      refine ⟨rest ++ more, ?_, rfl⟩
      rw [readBehindPath_compare path hsigns, skipBlanks_append hvalue]
      exact (prolonged_readValue h.toDetached setting _).bind
        (fun value rest _ => prolonged_compareWith relation path value rest) f rest hread

theorem exists_readComparison_append (h : Separate more)
    (hread : readComparison setting cs = ok f rest) :
    ∃ rest', readComparison setting (cs ++ more) = ok f rest' ∧
      skipBlanks rest' = skipBlanks (rest ++ more) := by
  rw [readComparison_eq] at hread ⊢
  obtain ⟨path, behind, hpath, hbehind⟩ := exists_of_bind_eq_ok hread
  rw [prolonged_readPath h.follows cs path behind hpath]
  exact exists_readBehindPath_append h hbehind

/-! ## Operands -/

theorem exists_readOperand_unopened_append (h : Separate more)
    (hopen : ∀ inner, skipBlanks cs ≠ '(' :: inner) (hread : readOperand setting cs = ok f rest) :
    ∃ rest', readOperand setting (cs ++ more) = ok f rest' ∧
      skipBlanks rest' = skipBlanks (rest ++ more) := by
  have hskip := skipBlanks_ne_nil_of_readOperand hread
  have hmore := skipBlanks_append hskip more
  have hopen' : ∀ inner, skipBlanks (cs ++ more) ≠ '(' :: inner := by
    rw [hmore]
    exact append_ne_cons hskip hopen more
  have hword : dropKeyword? ['n', 'o', 't'] (skipBlanks cs ++ more) =
      (dropKeyword? ['n', 'o', 't'] (skipBlanks cs)).map (· ++ more) :=
    dropKeyword?_behind (List.all_eq_true.1 (by decide)) (h.follows.stops (by decide)) _
  rw [readOperand_unopened hopen] at hread
  rw [readOperand_unopened hopen', hmore, hword]
  cases hdrop : dropKeyword? ['n', 'o', 't'] (skipBlanks cs) with
  | none =>
    rw [hdrop] at hread
    exact exists_readComparison_append h hread
  | some behind =>
    rw [hdrop] at hread
    have hmissing : (readPath (skipBlanks behind)).map .missing = ok f rest := hread
    have hpath : skipBlanks behind ≠ [] := by
      intro hnil
      rw [hnil] at hmissing
      obtain ⟨path, rest', hread, -⟩ := exists_of_bind_eq_ok hmissing
      exact absurd (advances_readPath [] path rest' hread) (Nat.not_lt_zero _)
    refine ⟨rest ++ more, ?_, rfl⟩
    simp only [Option.map_some, skipBlanks_append hpath]
    exact ((prolonged_readPath h.follows _).map _) f rest hmissing

/-- An operand is read in front of a separate text as it is read in front of any other. -/
theorem exists_readOperand_append (h : Separate more) {f : Filter} {cs rest : List Char}
    (hread : readOperand setting cs = ok f rest) :
    ∃ rest', readOperand setting (cs ++ more) = ok f rest' ∧
      skipBlanks rest' = skipBlanks (rest ++ more) := by
  by_cases hopen : ∃ inner, skipBlanks cs = '(' :: inner
  · obtain ⟨inner, hopen⟩ := hopen
    have hinner : inner.length < cs.length := (suffix_of_skipBlanks hopen).length_le
    have hstops : Stops isNameChar more := h.follows.stops (by decide)
    have hopen' : skipBlanks (cs ++ more) = '(' :: (inner ++ more) := by
      rw [skipBlanks_append (skipBlanks_ne_nil_of_readOperand hread), hopen]
      rfl
    rw [readOperand_opened hopen] at hread
    obtain ⟨g, behind, hor, hclosing⟩ := exists_of_bind_eq_ok hread
    obtain ⟨rfl, hclosed⟩ := closed_of_readClosing hclosing
    have hclear : Clear more behind :=
      .inr ⟨')', (suffix_of_skipBlanks hclosed).mem List.mem_cons_self, by decide⟩
    have hoperand : ∀ mid, mid <:+ inner →
        Behind more (readOperand setting mid) (readOperand setting (mid ++ more)) := by
      intro mid hmid g rest' hread _
      have hshorter := hmid.length_le
      exact exists_readOperand_append h hread
    obtain ⟨behind', hor', hskip⟩ := behind_readOr hstops hoperand g behind hor hclear
    have hclosed' : skipBlanks behind' = ')' :: (rest ++ more) := by
      rw [hskip, hclear.skipBlanks_append, hclosed]
      rfl
    exact ⟨rest ++ more, by rw [readOperand_opened hopen', hor', bind_ok,
      readClosing_of_closed hclosed'], rfl⟩
  · exact exists_readOperand_unopened_append h (not_exists.1 hopen) hread
termination_by cs.length

theorem Separate.behind_readOr (h : Separate more) (setting : Setting) (cs : List Char) :
    Behind more (readOr setting cs) (readOr setting (cs ++ more)) :=
  Filter.behind_readOr (h.follows.stops (by decide)) fun _ _ _ _ hread _ =>
    exists_readOperand_append h hread

end TagGrid.Filter
