import TagGrid.Proofs.Filter.Prolonged
import TagGrid.Proofs.Reader.Sessions

/-! # Precedence

`and` joins before `or`, and both join to the left, however long a chain of either is. What
is joined are atoms: texts that are filters without `and` and `or`, and filters of any kind
in parentheses. An atom means in a chain what it means alone.
-/

namespace TagGrid

/-- A list with something in it. -/
structure Series (α : Type) where
  first : α
  others : List α
  deriving Repr

namespace Series

variable {α β : Type}

def toList (s : Series α) : List α := s.first :: s.others

def map (f : α → β) (s : Series α) : Series β := ⟨f s.first, s.others.map f⟩

/-- All elements joined, from the left. -/
def joinLeft (join : α → α → α) (s : Series α) : α := s.others.foldl join s.first

end Series

namespace Filter

/-- A text that stands for a filter among words that join. -/
inductive IsAtom : String → Filter → Prop where
  /-- A filter without `and` and `or`. -/
  | plain {text : String} {f : Filter} (hread : parse? text = .ok f)
    (hplain : f.isCompound = false) : IsAtom text f
  /-- A filter in parentheses. -/
  | enclosed {text : String} {f : Filter} (hread : parse? text = .ok f) :
    IsAtom ("(" ++ text ++ ")") f

/-- An atom and the filter that it stands for. -/
structure Atom where
  text : String
  filter : Filter
  isAtom : IsAtom text filter

def conjunctionText (atoms : Series Atom) : String :=
  " and ".intercalate (atoms.map Atom.text).toList

def conjunction (atoms : Series Atom) : Filter := (atoms.map Atom.filter).joinLeft .and

def disjunctionText (groups : Series (Series Atom)) : String :=
  " or ".intercalate (groups.map conjunctionText).toList

def disjunction (groups : Series (Series Atom)) : Filter :=
  (groups.map conjunction).joinLeft .or

open Text Zinc Zinc.Outcome

variable {more rest : List Char} {f : Filter} {text : String} {ι : Type}

/-! ## Filters that are texts -/

theorem blank_of_readFilterEnd (h : readFilterEnd rest = ok () more) : skipBlanks rest = [] := by
  unfold readFilterEnd at h
  split at h
  · assumption
  · split_ifs at h <;> cases h

/-- A filter is the text of a disjunction with nothing but blanks behind it. -/
theorem parse?_eq_ok_iff :
    parse? text = .ok f ↔ ∃ rest, readOr .filter text.toList = ok f rest ∧ skipBlanks rest = [] := by
  have hstart : readOr .filter (skipBlanks text.toList) = readOr .filter text.toList :=
    (level_or .filter).all_congr (skipBlanks_skipBlanks _)
  constructor
  · intro h
    obtain ⟨more, hfilter⟩ := Reader.exists_of_run_eq_ok h
    unfold readFilter at hfilter
    split at hfilter
    · cases hfilter
    · obtain ⟨g, rest, hread, hend⟩ := exists_of_bind_eq_ok hfilter
      obtain ⟨_, _, hblank, hsame⟩ := exists_of_bind_eq_ok hend
      cases hsame
      exact ⟨rest, hstart ▸ hread, blank_of_readFilterEnd hblank⟩
  · rintro ⟨rest, hread, hrest⟩
    have hend : readFilterEnd rest = ok () [] := by
      unfold readFilterEnd
      rw [hrest]
    rw [← hstart] at hread
    have hfilter : readFilter .filter text.toList = ok f [] := by
      unfold readFilter
      split
      · rename_i hnil
        rw [hnil] at hread
        exact absurd (advances_readOr .filter [] f rest hread) (Nat.not_lt_zero _)
      · rw [hread, bind_ok, hend]
        rfl
    unfold parse? Reader.filter Reader.run Reader.ofText
    rw [hfilter]

/-! ## Chains of atoms -/

theorem intercalate_cons {α : Type} (separator first : List α) (others : List (List α)) :
    separator.intercalate (first :: others) = first ++ others.flatMap (separator ++ ·) := by
  induction others generalizing first with
  | nil => simp
  | cons second others ih =>
    rw [List.intercalate_cons_cons, ih, List.flatMap_cons, List.append_assoc, List.append_assoc]

theorem toList_intercalate {separator : String} {word : List Char}
    (h : separator.toList = ' ' :: (word ++ [' '])) (text : ι → String) (s : Series ι) :
    (separator.intercalate (s.map text).toList).toList =
      (text s.first).toList ++ joinedText word (fun i => (text i).toList) s.others := by
  rw [String.toList_intercalate, h]
  show List.intercalate _ ((text s.first).toList :: (s.others.map text).map String.toList) = _
  rw [intercalate_cons]
  simp [joinedText, List.flatMap_map]

theorem readsBefore_plain (hread : parse? text = .ok f) (hplain : f.isCompound = false) :
    ReadsBefore Separate (readOperand .filter) text.toList f := by
  intro more hmore
  obtain ⟨rest, hor, hrest⟩ := parse?_eq_ok_iff.1 hread
  obtain ⟨rest₁, hand, rfl⟩ := (level_or .filter).item_of_all hor hplain
  obtain ⟨rest₂, hoperand, rfl⟩ := (level_and .filter).item_of_all hand hplain
  obtain ⟨rest₃, hbehind, hskip⟩ := exists_readOperand_append hmore hoperand
  rw [skipBlanks_skipBlanks, skipBlanks_skipBlanks] at hrest
  exact ⟨rest₃, hbehind, hskip.trans (skipBlanks_append_of_eq_nil hrest more)⟩

theorem readsBefore_enclosed (hread : parse? text = .ok f) :
    ReadsBefore Separate (readOperand .filter) ("(" ++ text ++ ")").toList f := by
  intro more _
  obtain ⟨rest, hor, hrest⟩ := parse?_eq_ok_iff.1 hread
  have hclear : Clear (')' :: more) rest := .inl (Stops.cons (by decide))
  obtain ⟨rest', hbehind, hskip⟩ :=
    (separate_parenthesis more).behind_readOr .filter text.toList f rest hor hclear
  have hclosed : skipBlanks rest' = ')' :: more := by
    rw [hskip, skipBlanks_append_of_eq_nil hrest]
    exact skipBlanks_cons more (by decide)
  have htext : ("(" ++ text ++ ")").toList ++ more = '(' :: (text.toList ++ ')' :: more) := by
    simp
  refine ⟨more, ?_, rfl⟩
  rw [htext]
  exact readOperand_enclosed hbehind hclosed

/-- An atom is an operand wherever an operand can end. -/
theorem IsAtom.readsBefore (h : IsAtom text f) :
    ReadsBefore Separate (readOperand .filter) text.toList f := by
  cases h with
  | plain hread hplain => exact readsBefore_plain hread hplain
  | enclosed hread => exact readsBefore_enclosed hread

theorem readsBefore_conjunction (atoms : Series Atom) :
    ReadsBefore (fun more => Separate more ∧ dropKeyword? ['a', 'n', 'd'] (skipBlanks more) = none)
      (readAnd .filter) (conjunctionText atoms).toList (conjunction atoms) := by
  have hword : " and ".toList = ' ' :: (['a', 'n', 'd'] ++ [' ']) := rfl
  have hatoms : ∀ atom ∈ atoms.toList,
      ReadsBefore Separate (readOperand .filter) atom.text.toList atom.filter :=
    fun atom _ => atom.isAtom.readsBefore
  unfold conjunctionText
  rw [toList_intercalate hword]
  exact (level_and .filter).readsBefore_joinedText (fun rest => separate_and (' ' :: rest)) hatoms

theorem readsBefore_disjunction (groups : Series (Series Atom)) :
    ReadsBefore (fun more => (Separate more ∧
        dropKeyword? ['a', 'n', 'd'] (skipBlanks more) = none) ∧
        dropKeyword? ['o', 'r'] (skipBlanks more) = none)
      (readOr .filter) (disjunctionText groups).toList (disjunction groups) := by
  have hjoined (rest : List Char) : Separate (' ' :: (['o', 'r'] ++ ' ' :: rest)) ∧
      dropKeyword? ['a', 'n', 'd'] (skipBlanks (' ' :: (['o', 'r'] ++ ' ' :: rest))) = none :=
    ⟨separate_or (' ' :: rest), dropKeyword?_eq_none nofun⟩
  have hgroups : ∀ atoms ∈ groups.toList, ReadsBefore _ (readAnd .filter)
      (conjunctionText atoms).toList (conjunction atoms) := fun atoms _ => readsBefore_conjunction atoms
  have hword : " or ".toList = ' ' :: (['o', 'r'] ++ [' ']) := rfl
  unfold disjunctionText
  rw [toList_intercalate hword]
  exact (level_or .filter).readsBefore_joinedText hjoined hgroups

/-- Atoms joined by `and`, and what comes of that joined by `or`, are a filter: the
disjunction, from the left, of the conjunctions, from the left, of what the atoms mean. -/
theorem chains_join_to_the_left (groups : Series (Series Atom)) :
    parse? (disjunctionText groups) = .ok (disjunction groups) := by
  obtain ⟨rest, hread, hrest⟩ :=
    readsBefore_disjunction groups [] ⟨⟨separate_nil, rfl⟩, rfl⟩
  rw [List.append_nil] at hread
  exact parse?_eq_ok_iff.2 ⟨rest, hread, hrest⟩

/-- A path is an atom. -/
def Atom.ofPath (p : Path) : Atom where
  text := String.ofList p.text
  filter := .has p
  isAtom := by
    have hread : readOr .filter (String.ofList p.text).toList = ok (.has p) [] := by
      rw [String.toList_ofList, ← List.append_nil p.text]
      exact readsAlone (.has p) rfl [] (.inl rfl)
    exact .plain (parse?_eq_ok_iff.2 ⟨[], hread, rfl⟩) rfl

def site : Path := ⟨["site"], by decide, by decide⟩

def pump : Path := ⟨["pump"], by decide, by decide⟩

def order : Path := ⟨["order", "andy"], by decide, by decide⟩

/-- The last atom of the chain is a chain in parentheses. -/
theorem sample_chains_join_to_the_left :
    parse? "site or pump and order->andy and (pump or site)" =
      .ok (.or (.has site) (.and (.and (.has pump) (.has order)) (.or (.has pump) (.has site)))) :=
  chains_join_to_the_left ⟨⟨.ofPath site, []⟩, [⟨.ofPath pump, [.ofPath order,
    ⟨"(pump or site)", .or (.has pump) (.has site), .enclosed <| chains_join_to_the_left
      ⟨⟨.ofPath pump, []⟩, [⟨.ofPath site, []⟩]⟩⟩]⟩]⟩

end Filter

end TagGrid
