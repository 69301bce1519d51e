import TagGrid.Filter.Reader
import TagGrid.Proofs.Zinc.Places

/-! # Where reading filters stops -/

namespace TagGrid.Filter

open Zinc Zinc.Outcome

variable {word cs rest : List Char}

theorem dropKeyword?_suffix (h : dropKeyword? word cs = some rest) : rest <:+ cs := by
  unfold dropKeyword? at h
  split at h
  · cases h
    exact List.drop_suffix _ _
  · cases h

/-! ## Paths -/

theorem within_readSegment (cs : List Char) : Within cs (readSegment cs) :=
  within_readNameOr .segmentStart (fun _ => trivial) cs

theorem within_readSegments (cs : List Char) : Within cs (readSegments cs) := by
  have hfirst := within_readSegment
  fun_induction readSegments cs with
  | case1 cs fault place rest hread => exact (hfirst cs).of_fail hread
  | case2 cs segment rest hread ih =>
    have hrest : rest <:+ '-' :: '>' :: rest := ⟨['-', '>'], rfl⟩
    exact (ih.mono (hrest.trans ((hfirst cs).suffix_of_ok hread))).map _
  | case3 cs segment rest _ hread =>
    have hrest := (hfirst cs).suffix_of_ok hread
    exact within_failHere trivial ((List.suffix_cons _ _).trans hrest)
  | case4 cs segment rest _ _ hread => exact (hfirst cs).suffix_of_ok hread

theorem within_readPath (cs : List Char) : Within cs (readPath cs) := by
  unfold readPath
  refine (within_readSegments cs).andThen fun segments rest => ?_
  exact within_check (List.suffix_refl _) (List.suffix_refl _) _

/-! ## Operands -/

theorem splitRelation?_suffix {relation : Relation}
    (h : splitRelation? cs = some (relation, rest)) : rest <:+ cs := by
  unfold splitRelation? at h
  split at h
  all_goals cases h
  · exact ⟨['=', '='], rfl⟩
  · exact ⟨['!', '='], rfl⟩
  · exact ⟨['<', '='], rfl⟩
  · exact ⟨['>', '='], rfl⟩
  · exact ⟨['<'], rfl⟩
  · exact ⟨['>'], rfl⟩

/-- The comparison with a value that was read, if there was one. -/
def compareWith (relation : Relation) (path : Path) : Option Value → List Char → Outcome Filter
  | some value, rest => ok (.compare relation path value) rest
  | none, rest => failHere .absentOperand rest

/-- Reads what comes behind the path of a comparison. -/
def readBehindPath (setting : Setting) (path : Path) (rest : List Char) : Outcome Filter :=
  match splitRelation? (skipBlanks rest) with
  | none => ok (.has path) (skipBlanks rest)
  | some (relation, rest) =>
    (readValue setting (skipBlanks rest)).bind (compareWith relation path)

theorem readComparison_eq (setting : Setting) (cs : List Char) :
    readComparison setting cs = (readPath cs).bind (readBehindPath setting) := by
  refine congrArg (readPath cs).bind (funext fun path => funext fun rest => ?_)
  unfold readBehindPath
  cases splitRelation? (skipBlanks rest) with
  | none => rfl
  | some r =>
    refine congrArg (readValue setting (skipBlanks r.2)).bind (funext fun value => ?_)
    cases value <;> rfl

theorem within_compareWith (relation : Relation) (path : Path) (value : Option Value)
    (rest : List Char) : Within rest (compareWith relation path value rest) := by
  cases value with
  | none => exact within_failHere trivial (List.suffix_refl _)
  | some value => exact List.suffix_refl _

theorem within_readBehindPath (setting : Setting) (path : Path) (rest : List Char) :
    Within rest (readBehindPath setting path rest) := by
  unfold readBehindPath
  split
  · exact skipBlanks_suffix rest
  · rename_i relation behind heq
    have hbehind : skipBlanks behind <:+ rest :=
      (skipBlanks_suffix behind).trans ((splitRelation?_suffix heq).trans (skipBlanks_suffix rest))
    exact ((within_readValue setting _).mono hbehind).andThen (within_compareWith relation path)

theorem within_readComparison (setting : Setting) (cs : List Char) :
    Within cs (readComparison setting cs) := by
  rw [readComparison_eq]
  exact (within_readPath cs).andThen (within_readBehindPath setting)

/-- Reads the parenthesis behind a filter. -/
def readClosing (filter : Filter) (rest : List Char) : Outcome Filter :=
  match skipBlanks rest with
  | ')' :: rest => ok filter rest
  | rest => failHere .parenthesisUnclosed rest

theorem within_readClosing (filter : Filter) (rest : List Char) :
    Within rest (readClosing filter rest) := by
  unfold readClosing
  split
  · rename_i heq
    exact (List.suffix_cons _ _).trans (suffix_of_skipBlanks heq)
  · exact within_failHere trivial (skipBlanks_suffix rest)

mutual

theorem within_readOr (setting : Setting) (cs : List Char) : Within cs (readOr setting cs) := by
  have hfirst := within_readAnd setting cs
  rw [readOr.eq_def]
  split
  · rename_i heq
    exact hfirst.of_fail heq
  · rename_i left rest heq
    have hrest := hfirst.suffix_of_ok heq
    split
    · exact (within_readOrRest setting left rest).mono hrest
    · exact hrest
termination_by 3 * cs.length + 2

theorem within_readOrRest (setting : Setting) (left : Filter) (cs : List Char) :
    Within cs (readOrRest setting left cs) := by
  rw [readOrRest.eq_def]
  split
  · exact skipBlanks_suffix cs
  · rename_i rest hword
    have hrest : rest <:+ cs := (dropKeyword?_suffix hword).trans (skipBlanks_suffix cs)
    have hlength := hrest.length_le
    have hnext := (within_readAnd setting rest).mono hrest
    split
    · rename_i heq
      exact hnext.of_fail heq
    · rename_i right rest' heq
      have hrest' := hnext.suffix_of_ok heq
      split
      · exact (within_readOrRest setting _ rest').mono hrest'
      · exact hrest'
termination_by 3 * cs.length + 2

theorem within_readAnd (setting : Setting) (cs : List Char) : Within cs (readAnd setting cs) := by
  have hfirst := within_readOperand setting cs
  rw [readAnd.eq_def]
  split
  · rename_i heq
    exact hfirst.of_fail heq
  · rename_i left rest heq
    have hrest := hfirst.suffix_of_ok heq
    split
    · exact (within_readAndRest setting left rest).mono hrest
    · exact hrest
termination_by 3 * cs.length + 1

theorem within_readAndRest (setting : Setting) (left : Filter) (cs : List Char) :
    Within cs (readAndRest setting left cs) := by
  rw [readAndRest.eq_def]
  split
  · exact skipBlanks_suffix cs
  · rename_i rest hword
    have hrest : rest <:+ cs := (dropKeyword?_suffix hword).trans (skipBlanks_suffix cs)
    have hlength := hrest.length_le
    have hnext := (within_readOperand setting rest).mono hrest
    split
    · rename_i heq
      exact hnext.of_fail heq
    · rename_i right rest' heq
      have hrest' := hnext.suffix_of_ok heq
      split
      · exact (within_readAndRest setting _ rest').mono hrest'
      · exact hrest'
termination_by 3 * cs.length + 1

theorem within_readOperand (setting : Setting) (cs : List Char) :
    Within cs (readOperand setting cs) := by
  rw [readOperand.eq_def]
  split
  · rename_i inner heq
    have hstart := suffix_of_skipBlanks heq
    have hinner : inner <:+ cs := (List.suffix_cons _ _).trans hstart
    have hlength : inner.length < cs.length := hstart.length_le
    exact ((within_readOr setting inner).mono hinner).andThen within_readClosing
  · split
    · rename_i rest hword
      have hrest : skipBlanks rest <:+ cs := (skipBlanks_suffix rest).trans
        ((dropKeyword?_suffix hword).trans (skipBlanks_suffix cs))
      exact ((within_readPath _).mono hrest).map _
    · exact (within_readComparison setting _).mono (skipBlanks_suffix cs)
termination_by 3 * cs.length

end

/-! ## Filters -/

theorem within_readFilterEnd (cs : List Char) : Within cs (readFilterEnd cs) := by
  unfold readFilterEnd
  split
  · exact List.nil_suffix
  · rename_i heq
    have hstart := suffix_of_skipBlanks heq
    split
    · exact within_failHere trivial hstart
    · split
      · exact within_failHere trivial ((List.dropWhile_suffix _).trans hstart)
      · exact within_failHere trivial hstart

theorem within_readFilter (setting : Setting) (cs : List Char) :
    Within cs (readFilter setting cs) := by
  unfold readFilter
  split
  · exact within_failHere trivial List.nil_suffix
  · refine ((within_readOr setting _).mono (skipBlanks_suffix cs)).andThen fun filter rest => ?_
    exact (within_readFilterEnd rest).map _

end TagGrid.Filter
