import TagGrid.Filter.Basic
import TagGrid.Filter.Reader
import TagGrid.Proofs.Zinc.Values

/-! # Reading paths and comparisons back

A path ends where no name and no arrow goes on. No segment of a path is a word of filters,
so a path at the front of a text is never taken for `not`, whatever letters it starts with.
-/

namespace TagGrid

open Text

theorem isSegment_spec {s : String} (h : isSegment s.toList = true) :
    ∃ c cs, s.toList = c :: cs ∧ c.isAlpha = true ∧ (∀ d ∈ c :: cs, isNameChar d = true) ∧
      c :: cs ≠ ['a', 'n', 'd'] ∧ c :: cs ≠ ['o', 'r'] ∧ c :: cs ≠ ['n', 'o', 't'] := by
  cases hs : s.toList with
  | nil => simp [hs, isSegment] at h
  | cons c cs =>
    simp only [hs, isSegment, Bool.and_eq_true, Bool.not_eq_true', List.all_eq_true,
      List.contains_cons, List.contains_nil, Bool.or_eq_false_iff, beq_eq_false_iff_ne] at h
    obtain ⟨⟨halpha, hchars⟩, hand, hor, hnot, -⟩ := h
    refine ⟨c, cs, rfl, halpha, ?_, hand, hor, hnot⟩
    intro d hd
    rcases List.mem_cons.1 hd with rfl | hd
    · exact isNameChar_of_isAlpha halpha
    · exact hchars d hd

theorem Path.ofSegments?_segments (p : Path) : ofSegments? p.segments = .ok p := by
  unfold ofSegments?
  rw [dif_neg p.nonempty]
  split
  · rename_i bad hbad
    have hmem := List.mem_of_find?_eq_some hbad
    have hinvalid := List.find?_some hbad
    simp [p.valid bad hmem] at hinvalid
  · rfl

namespace Filter

open Zinc Zinc.Outcome

variable {word cs rest : List Char}

/-! ## Keywords -/

/-- A keyword at the front of a text is the whole name there. -/
theorem takeWhile_of_dropKeyword? (hword : ∀ c ∈ word, isNameChar c = true)
    (h : dropKeyword? word cs = some rest) : cs.takeWhile isNameChar = word := by
  unfold dropKeyword? at h
  split at h
  · rename_i hsplit
    obtain ⟨hstarts, hnext⟩ := hsplit
    obtain ⟨more, rfl⟩ := List.isPrefixOf_iff_prefix.1 hstarts
    rw [List.drop_left] at hnext
    apply Stops.takeWhile_append hword
    intro c hc
    rw [Option.mem_def.1 hc] at hnext
    simpa using hnext
  · cases h

theorem dropKeyword?_append (hstops : Stops isNameChar rest) :
    dropKeyword? word (word ++ rest) = some rest := by
  have hstarts : word.isPrefixOf (word ++ rest) = true :=
    List.isPrefixOf_iff_prefix.2 (List.prefix_append word rest)
  have hnext : ¬ rest.head?.any isNameChar := by
    cases rest with
    | nil => exact Bool.false_ne_true
    | cons c rest =>
      have hc := hstops c rfl
      simp [hc]
  unfold dropKeyword?
  rw [List.drop_left, if_pos ⟨hstarts, hnext⟩]

/-! ## Paths -/

theorem readSegment_append {s : String} (h : isSegment s.toList = true)
    (hstops : Stops isNameChar rest) : readSegment (s.toList ++ rest) = ok s rest := by
  obtain ⟨c, cs, hs, halpha, hchars, -⟩ := isSegment_spec h
  unfold readSegment
  rw [hs, readNameOr_append halpha hchars hstops, ← hs, String.ofList_toList]

/-- Segments with arrows between them. -/
def arrowed (segments : List String) : List Char :=
  ((segments.map String.toList).intersperse ['-', '>']).flatten

theorem arrowed_cons (s t : String) (segments : List String) :
    arrowed (s :: t :: segments) = s.toList ++ '-' :: '>' :: arrowed (t :: segments) := rfl

theorem readSegments_arrow {s : String} (h : readSegment cs = ok s ('-' :: '>' :: rest)) :
    readSegments cs = (readSegments rest).map (s :: ·) := by
  rw [readSegments.eq_def]
  split
  · rename_i heq
    rw [h] at heq
    cases heq
  · rename_i heq
    rw [h] at heq
    cases heq
    rfl
  · rename_i hnot heq
    rw [h] at heq
    cases heq
    exact absurd rfl (hnot rest)
  · rename_i hnot heq
    rw [h] at heq
    cases heq
    exact absurd rfl (hnot ('>' :: rest))

theorem readSegments_end {s : String} (h : readSegment cs = ok s rest)
    (harrow : rest.head? ≠ some '-') : readSegments cs = ok [s] rest := by
  rw [readSegments.eq_def]
  split
  · rename_i heq
    rw [h] at heq
    cases heq
  · rename_i heq
    rw [h] at heq
    cases heq
    exact absurd rfl harrow
  · rename_i heq
    rw [h] at heq
    cases heq
    exact absurd rfl harrow
  · rename_i heq
    rw [h] at heq
    cases heq
    rfl

theorem readSegments_arrowed {segments : List String} (hne : segments ≠ [])
    (hvalid : ∀ s ∈ segments, isSegment s.toList = true) (hstops : Stops isNameChar rest)
    (harrow : rest.head? ≠ some '-') : readSegments (arrowed segments ++ rest) = ok segments rest := by
  induction segments with
  | nil => exact absurd rfl hne
  | cons s segments ih =>
    have hs := hvalid s List.mem_cons_self
    cases segments with
    | nil =>
      apply readSegments_end _ harrow
      show readSegment (s.toList ++ [] ++ rest) = ok s rest
      rw [List.append_nil]
      exact readSegment_append hs hstops
    | cons t segments =>
      have hmore : readSegments (arrowed (t :: segments) ++ rest) = ok (t :: segments) rest :=
        ih (List.cons_ne_nil _ _) fun s hs => hvalid s (List.mem_cons_of_mem _ hs)
      have hread : readSegment (arrowed (s :: t :: segments) ++ rest) =
          ok s ('-' :: '>' :: (arrowed (t :: segments) ++ rest)) := by
        rw [arrowed_cons, List.append_assoc]
        exact readSegment_append hs (Stops.cons rfl)
      rw [readSegments_arrow hread, hmore]
      rfl

theorem readPath_text (p : Path) (hstops : Stops isNameChar rest)
    (harrow : rest.head? ≠ some '-') : readPath (p.text ++ rest) = ok p rest := by
  unfold readPath
  show (readSegments (arrowed p.segments ++ rest)).bind _ = _
  rw [readSegments_arrowed p.nonempty p.valid hstops harrow, bind_ok, p.ofSegments?_segments]
  rfl

/-- The text of a path starts with its first segment, which is no word of filters. -/
theorem exists_path_cons (p : Path) (hstops : Stops isNameChar rest) :
    ∃ c cs, p.text ++ rest = c :: cs ∧ c.isAlpha = true ∧
      (p.text ++ rest).takeWhile isNameChar ≠ ['n', 'o', 't'] := by
  have hvalid := p.valid
  have htext : p.text = arrowed p.segments := rfl
  rw [htext]
  cases hsegments : p.segments with
  | nil => exact absurd hsegments p.nonempty
  | cons s segments =>
    have hs := hvalid s (by rw [hsegments]; exact List.mem_cons_self)
    obtain ⟨c, cs, hcs, halpha, hchars, -, -, hnot⟩ := isSegment_spec hs
    have hshape : ∃ more, arrowed (s :: segments) ++ rest = s.toList ++ more ∧
        Stops isNameChar more := by
      cases segments with
      | nil =>
        refine ⟨rest, ?_, hstops⟩
        show s.toList ++ [] ++ rest = _
        rw [List.append_nil]
      | cons t segments =>
        have hdash : Stops isNameChar ('-' :: '>' :: (arrowed (t :: segments) ++ rest)) :=
          Stops.cons rfl
        refine ⟨_, ?_, hdash⟩
        rw [arrowed_cons, List.append_assoc]
        rfl
    obtain ⟨more, hshape, hmore⟩ := hshape
    rw [hshape, hcs, Stops.takeWhile_append hchars hmore]
    exact ⟨c, cs ++ more, rfl, halpha, hnot⟩

theorem skipBlanks_path (p : Path) (hstops : Stops isNameChar rest) :
    skipBlanks (p.text ++ rest) = p.text ++ rest := by
  obtain ⟨c, cs, hcs, halpha, -⟩ := exists_path_cons p hstops
  rw [isAlpha_iff] at halpha
  rw [hcs]
  exact skipBlanks_cons _ (isBlank_eq_false (by omega) (by omega))

/-! ## Comparisons -/

theorem splitRelation?_sign (r : Relation) (cs : List Char) :
    splitRelation? (r.sign ++ ' ' :: cs) = some (r, ' ' :: cs) := by
  cases r with
  | eq => rfl
  | ne => rfl
  | lt => rfl
  | le => rfl
  | gt => rfl
  | ge => rfl

theorem skipBlanks_sign (r : Relation) (cs : List Char) :
    skipBlanks (r.sign ++ cs) = r.sign ++ cs := by
  cases r with
  | eq => exact skipBlanks_cons _ (by decide)
  | ne => exact skipBlanks_cons _ (by decide)
  | lt => exact skipBlanks_cons _ (by decide)
  | le => exact skipBlanks_cons _ (by decide)
  | gt => exact skipBlanks_cons _ (by decide)
  | ge => exact skipBlanks_cons _ (by decide)

/-- A literal is read as its value, the words for the booleans included. -/
theorem readValue_literal {v : Value} (hsafe : v.zincSafe = true) (hrest : Follows rest) :
    readValue .filter (literal v ++ rest) = ok (some v) rest := by
  have hzinc := readsBack_zinc v hsafe .filter rest hrest
  cases v with
  | bool b =>
    cases b with
    | true =>
      show readValue .filter (['t', 'r', 'u', 'e'] ++ rest) = _
      rw [List.cons_append, readValue_alpha rfl, ← List.cons_append]
      exact readWordValue_keyword (List.all_eq_true.1 (by decide)) rfl (hrest.stops (by decide))
    | false =>
      show readValue .filter (['f', 'a', 'l', 's', 'e'] ++ rest) = _
      rw [List.cons_append, readValue_alpha rfl, ← List.cons_append]
      exact readWordValue_keyword (List.all_eq_true.1 (by decide)) rfl (hrest.stops (by decide))
  | _ => exact hzinc

theorem skipBlanks_literal (v : Value) (rest : List Char) :
    skipBlanks (literal v ++ rest) = literal v ++ rest := by
  have hzinc := skipBlanks_zinc v rest
  cases v with
  | bool b =>
    cases b with
    | true => exact skipBlanks_cons _ (by decide)
    | false => exact skipBlanks_cons _ (by decide)
  | _ => exact hzinc

theorem readComparison_compare (r : Relation) (p : Path) {v : Value} (hsafe : v.zincSafe = true)
    (hrest : Follows rest) :
    readComparison .filter ((compare r p v).text ++ rest) = ok (.compare r p v) rest := by
  have htext : (compare r p v).text ++ rest =
      p.text ++ ' ' :: (r.sign ++ ' ' :: (literal v ++ rest)) := by
    simp [text]
  have hspace : Stops isNameChar (' ' :: (r.sign ++ ' ' :: (literal v ++ rest))) := Stops.cons rfl
  unfold readComparison
  rw [htext, readPath_text p hspace (by simp), bind_ok, skipBlanks_cons_space, skipBlanks_sign,
    splitRelation?_sign]
  simp only [skipBlanks_cons_space, skipBlanks_literal, readValue_literal hsafe hrest, bind_ok]

end Filter

end TagGrid
