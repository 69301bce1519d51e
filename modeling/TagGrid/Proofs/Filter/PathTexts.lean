import TagGrid.Proofs.Filter.Precedence

/-! # Two readers of paths

A path by itself is read by cutting its text at the arrows and looking at the parts. As a
part of a filter it is read character by character, with the words of filters and the signs
of comparisons in view. Both take the texts of paths for paths and nothing else, apart from
the blanks and the parentheses that a filter may have around it.
-/

namespace TagGrid

open Text

variable {cs rest : List Char}

namespace Path

/-! ## Cutting at arrows -/

theorem splitArrows_ne_nil (cs : List Char) : splitArrows cs ≠ [] := by
  fun_cases splitArrows cs with
  | case1 => exact List.cons_ne_nil _ _
  | case2 => exact List.cons_ne_nil _ _
  | case3 => exact List.cons_ne_nil _ _
  | case4 => exact List.cons_ne_nil _ _

/-- The parts with arrows between them are the text that was cut. -/
theorem flatten_splitArrows (cs : List Char) :
    ((splitArrows cs).intersperse ['-', '>']).flatten = cs := by
  fun_induction splitArrows cs with
  | case1 => rfl
  | case2 cs ih =>
    obtain ⟨part, parts, hparts⟩ := List.exists_cons_of_ne_nil (splitArrows_ne_nil cs)
    rw [hparts] at ih ⊢
    rw [List.intersperse_cons_cons, List.flatten_cons, List.flatten_cons, ih]
    rfl
  | case3 c cs _ hnil _ => exact absurd hnil (splitArrows_ne_nil cs)
  | case4 c cs _ part parts hparts ih =>
    rw [hparts] at ih
    cases parts with
    | nil => simpa using ih
    | cons next parts => simpa using ih

theorem splitArrows_cons {c : Char} (hc : c ≠ '-') {part : List Char} {parts : List (List Char)}
    (h : splitArrows cs = part :: parts) : splitArrows (c :: cs) = (c :: part) :: parts := by
  rw [splitArrows.eq_def]
  split
  · contradiction
  · simp_all
  · simp_all

/-- A part without dashes ends at the next arrow. -/
theorem splitArrows_append_arrow {part : List Char} (h : '-' ∉ part) (cs : List Char) :
    splitArrows (part ++ '-' :: '>' :: cs) = part :: splitArrows cs := by
  induction part with
  | nil => rfl
  | cons c part ih =>
    rw [List.mem_cons, not_or] at h
    exact splitArrows_cons (Ne.symm h.1) (ih h.2)

theorem splitArrows_of_not_mem (h : '-' ∉ cs) : splitArrows cs = [cs] := by
  induction cs with
  | nil => rfl
  | cons c cs ih =>
    rw [List.mem_cons, not_or] at h
    exact splitArrows_cons (Ne.symm h.1) (ih h.2)

/-! ## Paths by themselves -/

theorem isSegment_nil : isSegment [] = false := rfl

theorem fault?_eq_none_iff {text : String} {index : Nat} {parts : List (List Char)} :
    fault? text index parts = none ↔ ∀ part ∈ parts, isSegment part = true := by
  induction parts generalizing index with
  | nil => simp [fault?]
  | cons part parts ih =>
    rw [fault?, List.forall_mem_cons, ← @ih (index + 1)]
    by_cases hnil : part = []
    · simp [hnil, isSegment_nil]
    · by_cases hsegment : isSegment part = true
      · simp [hnil, hsegment]
      · simp [hnil, hsegment]

theorem isSegment_dash {s : String} (h : isSegment s.toList = true) : '-' ∉ s.toList := by
  obtain ⟨c, cs, hs, -, hchars, -⟩ := isSegment_spec h
  rw [hs]
  intro hmem
  exact absurd (hchars '-' hmem) (by decide)

/-- The parts of the text of a path are its segments. -/
theorem splitArrows_text (p : Path) : splitArrows p.text = p.segments.map String.toList := by
  have hsegments (segments : List String) (hne : segments ≠ [])
      (hvalid : ∀ s ∈ segments, isSegment s.toList = true) :
      splitArrows (Filter.arrowed segments) = segments.map String.toList := by
    induction segments with
    | nil => exact absurd rfl hne
    | cons s segments ih =>
      have hdash := isSegment_dash (hvalid s List.mem_cons_self)
      cases segments with
      | nil =>
        show splitArrows (s.toList ++ []) = [s.toList]
        rw [List.append_nil]
        exact splitArrows_of_not_mem hdash
      | cons t segments =>
        have hothers := ih (List.cons_ne_nil _ _) fun s hs => hvalid s (List.mem_cons_of_mem _ hs)
        rw [Filter.arrowed_cons, splitArrows_append_arrow hdash, hothers]
        rfl
  exact hsegments p.segments p.nonempty p.valid

/-- A text is read as a path by itself exactly if it is the text of that path. -/
theorem parse?_eq_ok_iff {text : String} {p : Path} :
    parse? text = .ok p ↔ text.toList = p.text := by
  constructor
  · intro h
    unfold parse? at h
    dsimp only at h
    split at h
    · cases h
    · have hsegments := segments_of_ofSegments? (mapError_eq_ok.1 h)
      have hparts : p.segments.map String.toList = splitArrows text.toList := by
        simp [hsegments, Function.comp_def]
      unfold Path.text
      rw [hparts, flatten_splitArrows]
  · intro h
    have hparts := p.splitArrows_text
    rw [← h] at hparts
    have hfault : fault? text 0 (p.segments.map String.toList) = none := by
      rw [fault?_eq_none_iff]
      simpa using p.valid
    have hsegments : (p.segments.map String.toList).map String.ofList = p.segments := by simp
    unfold parse?
    simp only [hparts, hfault, hsegments, p.ofSegments?_segments]
    rfl

end Path

namespace Filter

open Zinc Zinc.Outcome

variable {p : Path} {mid : List Char}

/-! ## Paths in filters -/

theorem eq_of_readSegment {s : String} (h : readSegment cs = ok s rest) :
    cs = s.toList ++ rest := by
  unfold readSegment readNameOr at h
  split at h
  · cases h
  · split at h
    · cases h
      rw [String.toList_ofList, List.takeWhile_append_dropWhile]
    · cases h

/-- What is read as segments is the segments with arrows between them. -/
theorem eq_of_readSegments {segments : List String} (h : readSegments cs = ok segments rest) :
    segments ≠ [] ∧ cs = arrowed segments ++ rest := by
  fun_induction readSegments cs generalizing segments with
  | case1 => cases h
  | case2 cs s mid hread ih =>
    obtain ⟨others, mid', hothers, hsame⟩ := exists_of_bind_eq_ok h
    cases hsame
    obtain ⟨hne, hmid⟩ := ih hothers
    obtain ⟨t, others, rfl⟩ := List.exists_cons_of_ne_nil hne
    refine ⟨List.cons_ne_nil _ _, ?_⟩
    rw [eq_of_readSegment hread, hmid, arrowed_cons, List.append_assoc]
    rfl
  | case3 => cases h
  | case4 cs s rest' _ _ hread =>
    cases h
    refine ⟨List.cons_ne_nil _ _, ?_⟩
    show cs = s.toList ++ [] ++ rest
    rw [List.append_nil]
    exact eq_of_readSegment hread

theorem eq_of_readPath (h : readPath cs = ok p rest) : cs = p.text ++ rest := by
  obtain ⟨segments, mid, hread, hcheck⟩ := exists_of_bind_eq_ok h
  cases hsegments : Path.ofSegments? segments with
  | error v =>
    rw [hsegments] at hcheck
    cases hcheck
  | ok p' =>
    rw [hsegments] at hcheck
    cases hcheck
    obtain ⟨-, htext⟩ := eq_of_readSegments hread
    rw [← Path.segments_of_ofSegments? hsegments] at htext
    exact htext

/-- A filter that is a path alone, in no parentheses, stands at the front of its text. -/
theorem exists_of_readOr_has (h : readOr .filter cs = ok (.has p) rest)
    (hopen : ∀ inner, skipBlanks cs ≠ '(' :: inner) :
    ∃ behind, skipBlanks cs = p.text ++ behind ∧ skipBlanks behind = skipBlanks rest := by
  obtain ⟨rest₁, hand, rfl⟩ := (level_or .filter).item_of_all h rfl
  obtain ⟨rest₂, hoperand, rfl⟩ := (level_and .filter).item_of_all hand rfl
  rw [readOperand_unopened hopen] at hoperand
  split at hoperand
  · obtain ⟨_, _, _, hsame⟩ := exists_of_bind_eq_ok hoperand
    cases hsame
  · rw [readComparison_eq] at hoperand
    obtain ⟨path, behind, hpath, hbehind⟩ := exists_of_bind_eq_ok hoperand
    unfold readBehindPath at hbehind
    split at hbehind
    · cases hbehind
      refine ⟨behind, eq_of_readPath hpath, ?_⟩
      simp only [skipBlanks_skipBlanks]
    · obtain ⟨value, _, _, hsame⟩ := exists_of_bind_eq_ok hbehind
      cases value with
      | none => cases hsame
      | some value => cases hsame

/-! ## Both readers -/

/-- A text without blanks and parentheses. -/
def Bare (text : String) : Prop := ∀ c ∈ text.toList, isBlank c = false ∧ c ≠ '(' ∧ c ≠ ')'

theorem mem_arrowed {segments : List String} {c : Char} (h : c ∈ arrowed segments) :
    (∃ s ∈ segments, c ∈ s.toList) ∨ c = '-' ∨ c = '>' := by
  induction segments with
  | nil => cases h
  | cons s segments ih =>
    cases segments with
    | nil =>
      refine .inl ⟨s, List.mem_cons_self, ?_⟩
      simpa [arrowed] using h
    | cons t segments =>
      rw [arrowed_cons, List.mem_append, List.mem_cons, List.mem_cons] at h
      rcases h with hs | hdash | hpoint | hothers
      · exact .inl ⟨s, List.mem_cons_self, hs⟩
      · exact .inr (.inl hdash)
      · exact .inr (.inr hpoint)
      · exact (ih hothers).imp_left fun ⟨u, hu, hc⟩ => ⟨u, List.mem_cons_of_mem s hu, hc⟩

/-- The text of a path holds names and arrows only. -/
theorem bare_of_path {text : String} (h : text.toList = p.text) : Bare text := by
  intro c hc
  rw [h] at hc
  rcases mem_arrowed hc with ⟨s, hs, hc⟩ | rfl | rfl
  · obtain ⟨d, cs, hsegment, -, hchars, -⟩ := isSegment_spec (p.valid s hs)
    rw [hsegment] at hc
    have hname := hchars c hc
    refine ⟨isBlank_of_isNameChar hname, ?_, ?_⟩
    · rintro rfl
      exact absurd hname (by decide)
    · rintro rfl
      exact absurd hname (by decide)
  · decide
  · decide

/-- Without blanks and parentheses, a text is a filter that is a path alone exactly if it is
the text of that path. -/
theorem parse?_eq_has_iff {text : String} (hbare : Bare text) :
    parse? text = .ok (.has p) ↔ text.toList = p.text := by
  rw [parse?_eq_ok_iff]
  constructor
  · rintro ⟨rest, hread, hrest⟩
    have hskip : ∀ cs, cs <:+ text.toList → skipBlanks cs = cs := by
      intro cs hcs
      apply skipBlanks_eq
      intro c hc
      exact (hbare c (hcs.mem (List.mem_of_mem_head? hc))).1
    have hopen : ∀ inner, skipBlanks text.toList ≠ '(' :: inner := by
      intro inner heq
      rw [hskip _ (List.suffix_refl _)] at heq
      exact (hbare '(' (heq ▸ List.mem_cons_self)).2.1 rfl
    obtain ⟨behind, htext, hbehind⟩ := exists_of_readOr_has hread hopen
    rw [hskip _ (List.suffix_refl _)] at htext
    have hnil : behind = [] := by
      rw [hrest, hskip behind (htext ▸ List.suffix_append _ _)] at hbehind
      exact hbehind
    rw [htext, hnil, List.append_nil]
  · intro h
    refine ⟨[], ?_, rfl⟩
    rw [h, ← List.append_nil p.text]
    exact readsAlone (.has p) rfl [] (.inl rfl)

end Filter

/-- The two readers agree on every text: it is read as a path exactly if it is read as the
filter that asks for that path, with no blanks and no parentheses in it. The path has that
text then, and a path made of names is read from its text. -/
theorem path_readers_agree (text : String) (p : Path) :
    (Path.parse? text = .ok p ↔ Filter.Bare text ∧ Filter.parse? text = .ok (.has p)) ∧
    (Path.parse? text = .ok p → String.ofList p.text = text) ∧
    ∀ names, Path.ofSegments? names = .ok p → Path.parse? (String.ofList p.text) = .ok p := by
  refine ⟨?_, ?_, ?_⟩
  · rw [Path.parse?_eq_ok_iff]
    constructor
    · intro h
      exact ⟨Filter.bare_of_path h, (Filter.parse?_eq_has_iff (Filter.bare_of_path h)).2 h⟩
    · rintro ⟨hbare, hparse⟩
      exact (Filter.parse?_eq_has_iff hbare).1 hparse
  · intro h
    rw [← Path.parse?_eq_ok_iff.1 h, String.ofList_toList]
  · intro names _
    rw [Path.parse?_eq_ok_iff, String.toList_ofList]

/-- Both segments start with a word of filters. -/
theorem order_readers_agree :
    (Filter.Bare "order->andy" ∧ Filter.parse? "order->andy" = .ok (.has Filter.order)) ∧
    Path.parse? "order->andy" = .ok Filter.order ∧
    String.ofList Filter.order.text = "order->andy" ∧
    Path.ofSegments? ["order", "andy"] = .ok Filter.order ∧
    Path.parse? (String.ofList Filter.order.text) = .ok Filter.order := by
  have hbare : Filter.Bare "order->andy" := Filter.bare_of_path (p := Filter.order) rfl
  have hfilter : Filter.parse? "order->andy" = .ok (.has Filter.order) := by
    with_unfolding_all rfl
  have hnames : Path.ofSegments? ["order", "andy"] = .ok Filter.order := rfl
  obtain ⟨hiff, htext, hagain⟩ := path_readers_agree "order->andy" Filter.order
  have hparse := hiff.2 ⟨hbare, hfilter⟩
  exact ⟨⟨hbare, hfilter⟩, hparse, htext hparse, hnames, hagain _ hnames⟩

end TagGrid
