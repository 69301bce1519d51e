import TagGrid.Proofs.Filter.Levels
import TagGrid.Proofs.Reader.ValuePlans

/-! # How filters are read

An operand asks for a filter behind its parenthesis, or for the value that it compares with.
Conjunctions and disjunctions are loops over what they join.
-/

namespace TagGrid

open Zinc Zinc.Outcome

namespace Plan

variable {cs : List Char}

/-! ## Operands -/

def comparison (cs : List Char) : Plan Filter :=
  (done (Filter.readPath cs)).bind fun path rest =>
    match Filter.splitRelation? (skipBlanks rest) with
    | none => done (ok (.has path) (skipBlanks rest))
    | some (relation, rest) =>
      (of (.value .filter) (skipBlanks rest)).bind fun value rest =>
        done (Filter.compareWith relation path value rest)

theorem brings_comparison (cs : List Char) :
    Brings cs 0 (comparison cs) (Filter.readComparison .filter cs) := by
  rw [Filter.readComparison_eq]
  refine (Brings.done _).bind fun path rest hpath => ?_
  have hrest := Filter.advances_readPath cs path rest hpath
  unfold Filter.readBehindPath
  cases hsplit : Filter.splitRelation? (skipBlanks rest) with
  | none => exact .done _
  | some split =>
    obtain ⟨relation, rest'⟩ := split
    have hrest' := ((skipBlanks_suffix rest').trans (Filter.splitRelation?_suffix hsplit)).length_le
    have hskip := length_skipBlanks_le rest
    exact (Brings.of (Task.size_lt _ (by omega) 0)).bind fun _ _ _ => .done _

def operand (cs : List Char) : Plan Filter :=
  match skipBlanks cs with
  | '(' :: inner =>
    (of .disjunction inner).bind fun filter rest => done (Filter.readClosing filter rest)
  | start =>
    match Filter.dropKeyword? ['n', 'o', 't'] start with
    | some rest => (done (Filter.readPath (skipBlanks rest))).map .missing
    | none => comparison start

theorem brings_operand (cs : List Char) :
    Brings cs 0 (operand cs) (Filter.readOperand .filter cs) := by
  have hskip := length_skipBlanks_le cs
  unfold operand
  split
  · rename_i inner hopen
    rw [Filter.readOperand_opened hopen]
    have hinner : inner.length < cs.length := (suffix_of_skipBlanks hopen).length_le
    exact (Brings.of (Task.size_lt .disjunction hinner 0)).bind fun _ _ _ => .done _
  · rename_i hnot
    rw [Filter.readOperand_unopened hnot]
    cases Filter.dropKeyword? ['n', 'o', 't'] (skipBlanks cs) with
    | some rest => exact (Brings.done _).map _
    | none => exact (brings_comparison _).mono hskip (Nat.le_refl 0)

/-! ## Chains -/

/-- A turn of a chain: the word that joins, and the item behind it. -/
def chainTurn (word : List Char) (item : List Char → Plan Filter) (join : Filter → Filter → Filter)
    (left : Filter) (cs : List Char) : Plan (Turn Filter) :=
  match Filter.dropKeyword? word (skipBlanks cs) with
  | none => leave left (skipBlanks cs)
  | some rest => (item rest).bind fun right rest => again (join left right) rest

theorem turns_chain {word : List Char} {join : Filter → Filter → Filter}
    {item all : List Char → Outcome Filter} {tail : Filter → List Char → Outcome Filter}
    {plan : List Char → Plan Filter} (h : Filter.Level word join item all tail)
    (hplan : ∀ rest, rest.length < cs.length → Brings cs 1 (plan rest) (item rest))
    (left : Filter) : Turns tail cs (chainTurn word plan join left cs) (tail left cs) := by
  unfold chainTurn
  cases hword : Filter.dropKeyword? word (skipBlanks cs) with
  | none =>
    rw [h.tail_end left cs hword]
    exact .leave (skipBlanks_suffix cs)
  | some rest =>
    rw [h.tail_join left cs rest hword]
    have hrest := (Filter.dropKeyword?_suffix hword).trans (skipBlanks_suffix cs)
    have hlength := Nat.lt_of_lt_of_le (Filter.length_dropKeyword?_lt h.isWord hword)
      (length_skipBlanks_le cs)
    refine .bind (hplan rest hlength) ((h.item_within rest).mono hrest).rest_suffix
      fun right rest' hread hrest' => .again hrest' ?_
    have hrest'' := ((h.item_within rest).suffix_of_ok hread).length_le
    exact Nat.lt_of_le_of_lt hrest'' hlength

end Plan

end TagGrid
