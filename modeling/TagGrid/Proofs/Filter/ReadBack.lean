import TagGrid.Proofs.Filter.Levels
import TagGrid.Reader

/-! # Reading filters back

An operand of `and` or `or` is written in parentheses if it is joined itself, so every
operand is read by itself, and a chain never takes over an operand of another one. What
follows an operand is a word that joins, a closing parenthesis or the end.
-/

namespace TagGrid

/-- Whether all values that a filter compares with are read as themselves. -/
def Filter.zincSafe : Filter → Bool
  | has _ | missing _ => true
  | compare _ _ value => value.zincSafe
  | and left right | or left right => left.zincSafe && right.zincSafe

namespace Filter

open Text Zinc Zinc.Outcome

variable {f left right : Filter} {c : Char} {word cs mid inner rest : List Char}

/-! ## What follows -/

/-- A text after an operand: it can follow a value and does not start a comparison. -/
def EndsOperand (rest : List Char) : Prop :=
  Follows rest ∧ splitRelation? (skipBlanks rest) = none

/-- A text after a filter: nothing, or the parenthesis that closes it. -/
def EndsFilter (rest : List Char) : Prop := rest = [] ∨ ∃ more, rest = ')' :: more

theorem EndsFilter.endsOperand (h : EndsFilter rest) : EndsOperand rest := by
  rcases h with rfl | ⟨more, rfl⟩
  · exact ⟨Follows.nil, rfl⟩
  · exact ⟨Follows.cons (by decide) (by decide), by rw [skipBlanks_cons more (by decide)]; rfl⟩

theorem EndsFilter.skipBlanks_eq (h : EndsFilter rest) : skipBlanks rest = rest := by
  rcases h with rfl | ⟨more, rfl⟩
  · exact skipBlanks_nil
  · exact skipBlanks_cons more (by decide)

theorem dropKeyword?_eq_none (h : cs.head? ≠ some c) : dropKeyword? (c :: word) cs = none := by
  unfold dropKeyword?
  rw [if_neg]
  rintro ⟨hstarts, -⟩
  obtain ⟨more, rfl⟩ := List.isPrefixOf_iff_prefix.1 hstarts
  exact h rfl

/-- No word that joins stands behind a filter. -/
theorem EndsFilter.dropKeyword?_skipBlanks (h : EndsFilter rest) (hc : c ≠ ')') :
    dropKeyword? (c :: word) (skipBlanks rest) = none := by
  rw [h.skipBlanks_eq]
  apply Filter.dropKeyword?_eq_none
  rcases h with rfl | ⟨more, rfl⟩
  · exact nofun
  · intro heq
    exact hc (Option.some.inj heq).symm

/-- A path does not go on behind an operand. -/
theorem EndsOperand.ends_path (h : EndsOperand rest) :
    Stops isNameChar rest ∧ rest.head? ≠ some '-' := by
  have hdash : Stops (· == '-') rest := h.1.stops (by decide)
  refine ⟨h.1.stops (by decide), ?_⟩
  intro hhead
  exact absurd (hdash '-' hhead) (by decide)

/-! ## How a filter starts -/

theorem exists_plain_cons (h : f.isCompound = false) :
    ∃ c cs, f.text = c :: cs ∧ c.isAlpha = true := by
  have hpath (p : Path) : ∃ c cs, p.text = c :: cs ∧ c.isAlpha = true := by
    obtain ⟨c, cs, hcs, halpha, -⟩ := exists_path_cons p Stops.nil
    rw [List.append_nil] at hcs
    exact ⟨c, cs, hcs, halpha⟩
  cases f with
  | has p => exact hpath p
  | missing p => exact ⟨'n', _, rfl, rfl⟩
  | compare r p v =>
    obtain ⟨c, cs, hcs, halpha⟩ := hpath p
    refine ⟨c, cs ++ ' ' :: r.sign ++ ' ' :: literal v, ?_, halpha⟩
    unfold text
    rw [hcs]
    rfl
  | and => cases h
  | or => cases h

theorem enclosed_of_plain (h : f.isCompound = false) (cs : List Char) : enclosed f cs = cs := by
  unfold enclosed
  rw [h]
  rfl

theorem enclosed_of_compound (h : f.isCompound = true) (cs : List Char) :
    enclosed f cs = '(' :: (cs ++ [')']) := by
  unfold enclosed
  rw [h]
  rfl

theorem exists_enclosed_cons (f : Filter) :
    ∃ c cs, enclosed f f.text = c :: cs ∧ isBlank c = false := by
  cases h : f.isCompound with
  | true =>
    rw [enclosed_of_compound h]
    exact ⟨'(', _, rfl, by decide⟩
  | false =>
    obtain ⟨c, cs, hcs, halpha⟩ := exists_plain_cons h
    rw [enclosed_of_plain h, hcs]
    rw [isAlpha_iff] at halpha
    exact ⟨c, cs, rfl, isBlank_eq_false (by omega) (by omega)⟩

theorem text_and (left right : Filter) : (and left right).text =
    enclosed left left.text ++ joinedText ['a', 'n', 'd'] (fun f => enclosed f f.text) [right] := by
  simp [text, joinedText]

theorem text_or (left right : Filter) : (or left right).text =
    enclosed left left.text ++ joinedText ['o', 'r'] (fun f => enclosed f f.text) [right] := by
  simp [text, joinedText]

theorem exists_text_cons (f : Filter) : ∃ c cs, f.text = c :: cs ∧ isBlank c = false := by
  have hplain (h : f.isCompound = false) : ∃ c cs, f.text = c :: cs ∧ isBlank c = false := by
    have hf := exists_enclosed_cons f
    rw [enclosed_of_plain h] at hf
    exact hf
  cases f with
  | has => exact hplain rfl
  | missing => exact hplain rfl
  | compare => exact hplain rfl
  | and left right =>
    obtain ⟨c, cs, hcs, hblank⟩ := exists_enclosed_cons left
    rw [text_and, hcs]
    exact ⟨c, _, rfl, hblank⟩
  | or left right =>
    obtain ⟨c, cs, hcs, hblank⟩ := exists_enclosed_cons left
    rw [text_or, hcs]
    exact ⟨c, _, rfl, hblank⟩

theorem skipBlanks_enclosed (f : Filter) (rest : List Char) :
    skipBlanks (enclosed f f.text ++ rest) = enclosed f f.text ++ rest := by
  obtain ⟨c, cs, hcs, hblank⟩ := exists_enclosed_cons f
  rw [hcs]
  exact skipBlanks_cons _ hblank

/-! ## Single steps of the reader -/

theorem readOperand_not (hcs : skipBlanks cs = ['n', 'o', 't'] ++ rest)
    (hstops : Stops isNameChar rest) :
    readOperand .filter cs = (readPath (skipBlanks rest)).map .missing := by
  have hopen : ∀ inner, skipBlanks cs ≠ '(' :: inner := by
    rw [hcs]
    exact nofun
  rw [readOperand_unopened hopen, hcs, dropKeyword?_append hstops]

theorem readOperand_plain (hcs : skipBlanks cs = c :: mid) (hc : c ≠ '(')
    (hword : (c :: mid).takeWhile isNameChar ≠ ['n', 'o', 't']) :
    readOperand .filter cs = readComparison .filter (c :: mid) := by
  have hopen : ∀ inner, skipBlanks cs ≠ '(' :: inner := by
    rw [hcs]
    exact fun inner heq => hc (List.cons.inj heq).1
  have hnot : dropKeyword? ['n', 'o', 't'] (c :: mid) = none := by
    rw [dropKeyword?_eq (List.all_eq_true.1 (by decide)), if_neg hword]
  rw [readOperand_unopened hopen, hcs, hnot]

/-! ## Operands -/

/-- A filter is read as an operand of a chain. -/
def ReadsAsOperand (f : Filter) : Prop :=
  ReadsBefore EndsOperand (readOperand .filter) (enclosed f f.text) f

/-- A filter is read by itself, up to the end or a closing parenthesis. -/
def ReadsAlone (f : Filter) : Prop :=
  ∀ rest, EndsFilter rest → readOr .filter (f.text ++ rest) = ok f rest

theorem readComparison_has (p : Path) (hrest : EndsOperand rest) :
    readComparison .filter (p.text ++ rest) = ok (.has p) (skipBlanks rest) := by
  obtain ⟨hstops, harrow⟩ := hrest.ends_path
  unfold readComparison
  rw [readPath_text p hstops harrow, bind_ok, hrest.2]

/-- A path at the front of an operand is read with what may be compared with it. -/
theorem readOperand_path (p : Path) (hcs : skipBlanks cs = p.text ++ rest)
    (hstops : Stops isNameChar rest) :
    readOperand .filter cs = readComparison .filter (p.text ++ rest) := by
  obtain ⟨c, mid, hmid, halpha, hword⟩ := exists_path_cons p hstops
  have hc : c ≠ '(' := by
    rintro rfl
    exact absurd halpha (by decide)
  rw [hmid] at hcs hword ⊢
  exact readOperand_plain hcs hc hword

theorem readsAsOperand_plain (hplain : f.isCompound = false) (hsafe : f.zincSafe = true) :
    ReadsAsOperand f := by
  intro rest hrest
  have hcs := skipBlanks_enclosed f rest
  rw [enclosed_of_plain hplain] at hcs ⊢
  obtain ⟨hstops, harrow⟩ := hrest.ends_path
  cases f with
  | has p =>
    refine ⟨skipBlanks rest, ?_, skipBlanks_skipBlanks rest⟩
    rw [readOperand_path p hcs hstops]
    exact readComparison_has p hrest
  | missing p =>
    refine ⟨rest, ?_, rfl⟩
    have hword : skipBlanks ((missing p).text ++ rest) =
        ['n', 'o', 't'] ++ ' ' :: (p.text ++ rest) := hcs
    rw [readOperand_not hword (Stops.cons rfl), skipBlanks_cons_space, skipBlanks_path p hstops,
      readPath_text p hstops harrow]
    rfl
  | compare r p v =>
    refine ⟨rest, ?_, rfl⟩
    have hspace : Stops isNameChar (' ' :: (r.sign ++ ' ' :: (literal v ++ rest))) := Stops.cons rfl
    have htext : (compare r p v).text ++ rest =
        p.text ++ ' ' :: (r.sign ++ ' ' :: (literal v ++ rest)) := by
      simp [text]
    have hread := readComparison_compare r p hsafe hrest.1
    rw [htext] at hcs hread ⊢
    rw [readOperand_path p hcs hspace]
    exact hread
  | and => cases hplain
  | or => cases hplain

theorem readsAsOperand_compound (hcompound : f.isCompound = true) (hread : ReadsAlone f) :
    ReadsAsOperand f := by
  intro rest _
  have hinner := hread (')' :: rest) (.inr ⟨rest, rfl⟩)
  have htext : enclosed f f.text ++ rest = '(' :: (f.text ++ ')' :: rest) := by
    rw [enclosed_of_compound hcompound]
    simp
  refine ⟨rest, ?_, rfl⟩
  rw [htext]
  exact readOperand_enclosed hinner (skipBlanks_cons rest (by decide))

/-! ## Chains -/

theorem endsOperand_and (rest : List Char) : EndsOperand (' ' :: (['a', 'n', 'd'] ++ rest)) :=
  ⟨Follows.space (by decide), rfl⟩

theorem endsOperand_or (rest : List Char) : EndsOperand (' ' :: (['o', 'r'] ++ rest)) :=
  ⟨Follows.space (by decide), rfl⟩

/-- A text after a conjunction: it can follow an operand and goes on with no `and`. -/
def EndsConjunction (rest : List Char) : Prop :=
  EndsOperand rest ∧ dropKeyword? ['a', 'n', 'd'] (skipBlanks rest) = none

theorem endsConjunction_or (rest : List Char) :
    EndsConjunction (' ' :: (['o', 'r'] ++ rest)) :=
  ⟨endsOperand_or rest, dropKeyword?_eq_none nofun⟩

theorem EndsFilter.endsConjunction (h : EndsFilter rest) : EndsConjunction rest :=
  ⟨h.endsOperand, h.dropKeyword?_skipBlanks (by decide)⟩

theorem readsBefore_chain {others : List Filter} (hoperands : ∀ f ∈ left :: others, ReadsAsOperand f) :
    ReadsBefore EndsConjunction (readAnd .filter)
      (enclosed left left.text ++ joinedText ['a', 'n', 'd'] (fun f => enclosed f f.text) others)
      (others.foldl .and left) := by
  have hitems : ∀ f ∈ left :: others,
      ReadsBefore EndsOperand (readOperand .filter) (enclosed f f.text) (id f) := hoperands
  have hchain := (level_and .filter).readsBefore_joinedText
    (fun rest => endsOperand_and (' ' :: rest)) hitems
  rwa [List.map_id] at hchain

/-- An operand is a conjunction by itself. -/
theorem readsBefore_operand (hf : ReadsAsOperand f) :
    ReadsBefore EndsConjunction (readAnd .filter) (enclosed f f.text) f := by
  have hchain := readsBefore_chain (List.forall_mem_singleton.2 hf)
  rwa [joinedText, List.flatMap_nil, List.append_nil] at hchain

/-- A conjunction is a disjunction by itself. -/
theorem readsAlone_conjunction
    (h : ReadsBefore EndsConjunction (readAnd .filter) f.text f) : ReadsAlone f := by
  intro rest hrest
  have hor : dropKeyword? ['o', 'r'] (skipBlanks rest) = none :=
    hrest.dropKeyword?_skipBlanks (by decide)
  obtain ⟨rest', hread, hskip⟩ := h rest hrest.endsConjunction
  rw [(level_or .filter).all_eq, hread, bind_ok, (level_or .filter).tail_congr hskip,
    (level_or .filter).tail_end f rest hor, hrest.skipBlanks_eq]

theorem readsAlone_plain (hplain : f.isCompound = false) (hf : ReadsAsOperand f) :
    ReadsAlone f := by
  have hconjunction := readsBefore_operand hf
  rw [enclosed_of_plain hplain] at hconjunction
  exact readsAlone_conjunction hconjunction

theorem readsAlone_or (hleft : ReadsAsOperand left) (hright : ReadsAsOperand right) :
    ReadsAlone (.or left right) := by
  intro rest hrest
  have hor : dropKeyword? ['o', 'r'] (skipBlanks rest) = none :=
    hrest.dropKeyword?_skipBlanks (by decide)
  have hitems : ∀ f ∈ [left, right],
      ReadsBefore EndsConjunction (readAnd .filter) (enclosed f f.text) (id f) := by
    simpa using ⟨readsBefore_operand hleft, readsBefore_operand hright⟩
  have hread := (level_or .filter).all_joinedText
    (fun rest => endsConjunction_or (' ' :: rest)) hrest.endsConjunction hor hitems
  rwa [← List.append_assoc, ← text_or, hrest.skipBlanks_eq] at hread

theorem readsAlone_and (hleft : ReadsAsOperand left) (hright : ReadsAsOperand right) :
    ReadsAlone (.and left right) := by
  have hoperands : ∀ f ∈ [left, right], ReadsAsOperand f := by
    simpa using ⟨hleft, hright⟩
  have hchain := readsBefore_chain hoperands
  rw [← text_and] at hchain
  exact readsAlone_conjunction hchain

/-! ## Whole filters -/

theorem readsAsOperand_of_readsAlone (hsafe : f.zincSafe = true) (hread : ReadsAlone f) :
    ReadsAsOperand f := by
  cases h : f.isCompound with
  | true => exact readsAsOperand_compound h hread
  | false => exact readsAsOperand_plain h hsafe

theorem readsAlone (f : Filter) (hsafe : f.zincSafe = true) : ReadsAlone f := by
  induction f with
  | has => exact readsAlone_plain rfl (readsAsOperand_plain rfl hsafe)
  | missing => exact readsAlone_plain rfl (readsAsOperand_plain rfl hsafe)
  | compare => exact readsAlone_plain rfl (readsAsOperand_plain rfl hsafe)
  | and left right ihleft ihright =>
    obtain ⟨hleft, hright⟩ := Bool.and_eq_true_iff.1 hsafe
    exact readsAlone_and (readsAsOperand_of_readsAlone hleft (ihleft hleft))
      (readsAsOperand_of_readsAlone hright (ihright hright))
  | or left right ihleft ihright =>
    obtain ⟨hleft, hright⟩ := Bool.and_eq_true_iff.1 hsafe
    exact readsAlone_or (readsAsOperand_of_readsAlone hleft (ihleft hleft))
      (readsAsOperand_of_readsAlone hright (ihright hright))

theorem readFilter_text {f : Filter} (hsafe : f.zincSafe = true) :
    readFilter .filter f.text = ok f [] := by
  obtain ⟨c, cs, hcs, hblank⟩ := exists_text_cons f
  have hread := readsAlone f hsafe [] (.inl rfl)
  rw [List.append_nil, hcs] at hread
  rw [hcs]
  unfold readFilter
  rw [skipBlanks_cons cs hblank]
  show (readOr .filter (c :: cs)).bind _ = _
  rw [hread]
  rfl

/-- A text that is read to its end is the filter that was read. -/
theorem parse?_of_readFilter {f : Filter} {cs : List Char} (h : readFilter .filter cs = ok f []) :
    Filter.parse? (String.ofList cs) = .ok f := by
  unfold Filter.parse? Reader.filter Reader.run Reader.ofText
  rw [String.toList_ofList, h]

/-- The text of a filter is read as that filter, whatever its shape and its depth. -/
theorem filter_reads_back (f : Filter) (hsafe : f.zincSafe = true) :
    Filter.parse? f.toString = .ok f :=
  parse?_of_readFilter (readFilter_text hsafe)

/-- Parentheses on both sides, words of filters at the start of path names, and a literal
that holds texts of its own. -/
def sample : Filter :=
  .and
    (.or (.has ⟨["andy", "Order"], by decide, by decide⟩) (.missing ⟨["nothing"], by decide, by decide⟩))
    (.and (.compare .le ⟨["trueTag"], by decide, by decide⟩ .sample)
      (.compare .ne ⟨["x"], by decide, by decide⟩ (.bool false)))

theorem sample_filter_reads_back :
    sample.zincSafe = true ∧ Filter.parse? sample.toString = .ok sample :=
  ⟨by decide, filter_reads_back sample (by decide)⟩

end Filter

end TagGrid
