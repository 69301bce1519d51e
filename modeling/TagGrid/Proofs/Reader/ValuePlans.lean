import TagGrid.Proofs.Reader.Tasks
import TagGrid.Proofs.Zinc.Atoms
import TagGrid.Proofs.Zinc.Progress

/-! # How values and tags are read

A value in one piece asks for nothing. A list is a loop that asks for values, and so is a list
of tags.
-/

namespace TagGrid

open Zinc Zinc.Outcome

namespace Plan

variable {cs : List Char}

/-! ## Loops over characters -/

def literalTurn (q : Quotation) (before cs : List Char) : Plan (Turn (List Char)) :=
  match cs with
  | [] => done (failHere q.ending [])
  | c :: rest =>
    if c = '\n' then done (failHere q.lineEnd (c :: rest))
    else if c = q.mark then leave before.reverse rest
    else if c = '\\' then
      (done (readBackslash q rest)).bind fun escaped rest => again (escaped.reverse ++ before) rest
    else again (c :: before) rest

theorem turns_literal (q : Quotation) (before cs : List Char) :
    Turns (Loop.literal q).read cs (literalTurn q before cs) (readLiteralBody q before cs) := by
  cases cs with
  | nil =>
    rw [readLiteralBody]
    exact .fail (List.suffix_refl _)
  | cons c rest =>
    have hrest : rest <:+ c :: rest := List.suffix_cons c rest
    rw [readLiteralBody_cons]
    simp only [literalTurn]
    split
    · exact .fail (List.suffix_refl _)
    · split
      · exact .leave hrest
      · split
        · have hwithin := (within_readBackslash q rest).mono hrest
          refine .bind (.done _) hwithin.rest_suffix fun escaped rest' hescape hrest' => ?_
          exact .again hrest' (Nat.lt_succ_of_lt (length_readBackslash_lt hescape))
        · exact .again hrest (Nat.lt_succ_self _)

def tokenTurn (t : DigitToken) (cs : List Char) : Plan (Turn DigitToken) :=
  match cs with
  | [] => leave t []
  | c :: rest =>
    match t.step? c rest.head? with
    | some t' => again t' rest
    | none => leave t (c :: rest)

theorem turns_token (t : DigitToken) (cs : List Char) :
    Turns Loop.token.read cs (tokenTurn t cs) (ok (t.scan cs).1 (t.scan cs).2) := by
  fun_cases t.scan cs with
  | case1 => exact .leave (List.suffix_refl _)
  | case2 c rest t' hstep =>
    simp only [tokenTurn, hstep]
    exact .again (List.suffix_cons _ _) (Nat.lt_succ_self _)
  | case3 c rest hstep =>
    simp only [tokenTurn, hstep]
    exact .leave (List.suffix_refl _)

/-! ## Values -/

def value (setting : Setting) (cs : List Char) : Plan (Option Value) :=
  match cs with
  | '[' :: rest => (of (.loop (.items setting) []) rest).map fun items => some (.list items)
  | cs => done (readAtom setting cs)

theorem brings_value (setting : Setting) (cs : List Char) :
    Brings cs 0 (value setting cs) (readValue setting cs) := by
  fun_cases readValue setting cs with
  | case1 rest =>
    rw [← map_nil_append (readItems setting rest)]
    exact Brings.map (.of (Task.size_lt (.loop (.items setting) []) (Nat.lt_succ_self _) 0)) _
  | case2 =>
    simp only [value]
    exact .done _

/-- Goes on behind an item of a list. -/
def behindItem (items : List Value) (item : Option Value) (cs : List Char) :
    Plan (Turn (List Value)) :=
  match item, skipSpaces cs with
  | none, _ => done (failHere .absentItem cs)
  | some item, [] => (done (readChar ']' [])).bind fun _ rest => leave (items ++ [item]) rest
  | some item, c :: rest =>
    if c = ',' then again (items ++ [item]) rest
    else (done (readChar ']' (c :: rest))).bind fun _ rest => leave (items ++ [item]) rest

def itemsTurn (setting : Setting) (items : List Value) (cs : List Char) :
    Plan (Turn (List Value)) :=
  match skipSpaces cs with
  | ']' :: rest => leave items rest
  | start => (of (.value setting) start).bind (behindItem items)

/-- Behind the last item of a list its bracket closes it. -/
theorem turns_lastItem (setting : Setting) (items : List Value) (item : Value) {rest : List Char}
    (hrest : rest <:+ cs) :
    Turns (Loop.items setting).read cs
      ((done (readChar ']' rest)).bind fun _ rest => leave (items ++ [item]) rest)
      (((readChar ']' rest).map fun _ => [item]).map (items ++ ·)) := by
  have hmap : ((readChar ']' rest).map fun _ => [item]).map (items ++ ·) =
      (readChar ']' rest).bind fun _ => ok (items ++ [item]) := map_bind _ _ _
  have hclose := ((within_readChar ']' rest).mono hrest).rest_suffix
  rw [hmap]
  exact .bind (.done _) hclose fun _ _ _ => .leave

theorem turns_behindItem (setting : Setting) (items : List Value) (item : Option Value)
    {rest : List Char} (hrest : rest <:+ cs) (hlength : rest.length < cs.length) :
    Turns (Loop.items setting).read cs (behindItem items item rest)
      ((readBehindItem setting item rest).map (items ++ ·)) := by
  unfold behindItem readBehindItem
  cases item with
  | none => exact .fail hrest
  | some item =>
    cases hskip : skipSpaces rest with
    | nil => exact turns_lastItem setting items item List.nil_suffix
    | cons c rest' =>
      have hstart := (suffix_of_skipSpaces hskip).trans hrest
      simp only
      split
      · have hless : rest'.length < rest.length := (suffix_of_skipSpaces hskip).length_le
        rw [map_append_cons]
        exact .again ((List.suffix_cons c rest').trans hstart) (Nat.lt_trans hless hlength)
      · exact turns_lastItem setting items item hstart

theorem turns_items (setting : Setting) (items : List Value) (cs : List Char) :
    Turns (Loop.items setting).read cs (itemsTurn setting items cs)
      ((readItems setting cs).map (items ++ ·)) := by
  by_cases hclosed : ∃ rest, skipSpaces cs = ']' :: rest
  · obtain ⟨rest, hclosed⟩ := hclosed
    simp only [itemsTurn, hclosed, readItems_closed hclosed, map_ok, List.append_nil]
    exact .leave ((List.suffix_cons _ _).trans (suffix_of_skipSpaces hclosed))
  · have hopen := not_exists.1 hclosed
    simp only [itemsTurn, readItems_item hopen]
    have hwithin := (within_readValue setting (skipSpaces cs)).mono (skipSpaces_suffix cs)
    have hadvances := (advances_readValue setting (skipSpaces cs)).mono (skipSpaces_suffix cs)
    rw [map_bind]
    refine .bind (.of ?_) hwithin.rest_suffix fun item rest hread hrest => ?_
    · exact Task.size_lt_of_le (length_skipSpaces_le cs) Nat.zero_lt_one
    · exact turns_behindItem setting items item hrest (hadvances item rest hread)

/-! ## Tags -/

def tagValue (setting : Setting) (cs : List Char) : Plan (Option Value) :=
  match skipSpaces cs with
  | ':' :: rest => of (.value setting) (skipSpaces rest)
  | rest => done (ok (some .marker) rest)

theorem brings_tagValue (setting : Setting) (cs : List Char) :
    Brings cs 0 (tagValue setting cs) (readTagValue setting cs) := by
  fun_cases readTagValue setting cs with
  | case1 rest hcolon =>
    simp only [tagValue, hcolon]
    have hrest : rest.length < cs.length := (suffix_of_skipSpaces hcolon).length_le
    exact .of (Task.size_lt _ (Nat.lt_of_le_of_lt (length_skipSpaces_le rest) hrest) 0)
  | case2 =>
    simp only [tagValue]
    exact .done _

def tag (setting : Setting) (before : Dict) (cs : List Char) : Plan Dict :=
  (tagValue setting (cs.dropWhile Text.isNameChar)).bind fun value rest =>
    done (check cs rest (before.addOption? (String.ofList (cs.takeWhile Text.isNameChar)) value))

theorem brings_tag (setting : Setting) (before : Dict) (cs : List Char) :
    Brings cs 0 (tag setting before cs) (readTag setting before cs) := by
  have hname : cs.dropWhile Text.isNameChar <:+ cs := List.dropWhile_suffix _
  have hvalue := brings_tagValue setting (cs.dropWhile Text.isNameChar)
  exact (hvalue.mono hname.length_le (Nat.le_refl 0)).bind fun _ _ _ => .done _

def tagsTurn (setting : Setting) (tags : Dict) (cs : List Char) : Plan (Turn Dict) :=
  match skipSpaces cs with
  | [] => leave tags []
  | c :: start =>
    if c.isLower then (tag setting tags (c :: start)).bind again else leave tags (c :: start)

theorem turns_tags (setting : Setting) (tags : Dict) (cs : List Char) :
    Turns (Loop.tags setting).read cs (tagsTurn setting tags cs) (readTags setting tags cs) := by
  rw [readTags_eq]
  unfold tagsTurn
  cases hskip : skipSpaces cs with
  | nil => exact .leave List.nil_suffix
  | cons c start =>
    have hstart := suffix_of_skipSpaces hskip
    simp only
    split
    · rename_i hc
      have htag := (brings_tag setting tags (c :: start)).mono hstart.length_le (Nat.zero_le 1)
      have hwithin := (within_readTag setting tags (c :: start)).mono hstart
      refine .bind htag hwithin.rest_suffix fun tags' rest hread hrest => .again hrest ?_
      exact (advances_readTag setting tags hc start).mono hstart tags' rest hread
    · exact .leave hstart

end Plan

end TagGrid
