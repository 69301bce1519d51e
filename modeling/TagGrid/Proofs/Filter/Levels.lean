import Mathlib.Data.List.TakeWhile
import TagGrid.Proofs.Filter.Paths
import TagGrid.Proofs.Filter.Places

/-! # The levels of the grammar of filters

Conjunctions and disjunctions are read alike: an item, and more items as long as the word
that joins them comes next. What is said here of such a level holds of both, with operands
for the items of a conjunction and conjunctions for those of a disjunction.
-/

namespace TagGrid

open Text Zinc Zinc.Outcome

/-! ## Outcomes -/

namespace Zinc

/-- Behind what is left of a text there are no blanks, or there is more than blanks left. A
word that joins then comes next with `more` behind exactly if it did without. -/
def Clear (more rest : List Char) : Prop :=
  Stops isBlank more ∨ ∃ c ∈ rest, isBlank c = false

/-- If the first of two outcomes is a success that leaves a clear text in front of `more`,
so is the second one, of the same value, and it leaves `more` in addition. The blanks in
between may be taken. -/
def Outcome.Behind {α : Type} (more : List Char) (o o' : Outcome α) : Prop :=
  ∀ value rest, o = ok value rest → Clear more rest →
    ∃ rest', o' = ok value rest' ∧ skipBlanks rest' = skipBlanks (rest ++ more)

variable {α β : Type} {cs cs' more rest : List Char} {o : Outcome α}

namespace Clear

theorem mono (h : Clear more rest) (hrest : rest <:+ cs) : Clear more cs :=
  h.imp_right fun ⟨c, hc, hblank⟩ => ⟨c, hrest.mem hc, hblank⟩

theorem skipBlanks_append (h : Clear more rest) :
    skipBlanks (rest ++ more) = skipBlanks rest ++ more := by
  rcases h with hstops | ⟨c, hc, hblank⟩
  · exact hstops.dropWhile_behind rest
  · apply Zinc.skipBlanks_append
    intro hnil
    have hall := List.dropWhile_eq_nil_iff.1 hnil c hc
    rw [hblank] at hall
    cases hall

end Clear

end Zinc

namespace Filter

variable {word cs cs' more inner rest : List Char} {setting : Setting} {f left : Filter}

/-! ## Keywords -/

/-- A keyword at the front of a text is the longest name there. -/
theorem dropKeyword?_eq (hword : ∀ c ∈ word, isNameChar c = true) (cs : List Char) :
    dropKeyword? word cs =
      if cs.takeWhile isNameChar = word then some (cs.dropWhile isNameChar) else none := by
  split
  · rename_i hname
    have happend : word ++ cs.dropWhile isNameChar = cs := by
      rw [← hname]
      exact List.takeWhile_append_dropWhile
    have hdrop : dropKeyword? word (word ++ cs.dropWhile isNameChar) =
        some (cs.dropWhile isNameChar) := dropKeyword?_append (Stops.dropWhile isNameChar cs)
    rwa [happend] at hdrop
  · rename_i hname
    cases hdrop : dropKeyword? word cs with
    | none => rfl
    | some rest => exact absurd (takeWhile_of_dropKeyword? hword hdrop) hname

theorem dropKeyword?_behind (hword : ∀ c ∈ word, isNameChar c = true)
    (hmore : Stops isNameChar more) (cs : List Char) :
    dropKeyword? word (cs ++ more) = (dropKeyword? word cs).map (· ++ more) := by
  rw [dropKeyword?_eq hword, dropKeyword?_eq hword, hmore.takeWhile_behind,
    hmore.dropWhile_behind]
  split <;> rfl

theorem length_dropKeyword?_lt (hword : word ≠ []) (h : dropKeyword? word cs = some rest) :
    rest.length < cs.length := by
  unfold dropKeyword? at h
  split at h
  · rename_i hsplit
    cases h
    have hstarts := (List.isPrefixOf_iff_prefix.1 hsplit.1).length_le
    have hpos := List.length_pos_iff.2 hword
    rw [List.length_drop]
    omega
  · cases h

/-! ## Operands -/

theorem readClosing_of_closed (h : skipBlanks cs = ')' :: rest) : readClosing f cs = ok f rest := by
  unfold readClosing
  rw [h]
  rfl

theorem closed_of_readClosing {g : Filter} (h : readClosing f cs = ok g rest) :
    f = g ∧ skipBlanks cs = ')' :: rest := by
  unfold readClosing at h
  split at h
  · rename_i heq
    cases h
    exact ⟨rfl, heq⟩
  · cases h

theorem readOperand_opened (h : skipBlanks cs = '(' :: inner) :
    readOperand setting cs = (readOr setting inner).bind readClosing := by
  rw [readOperand.eq_def]
  split
  · rename_i heq
    rw [h] at heq
    cases heq
    rfl
  · rename_i hnot
    exact absurd h (hnot inner)

theorem readOperand_enclosed (hread : readOr setting (cs ++ ')' :: rest) = ok f cs')
    (hclosed : skipBlanks cs' = ')' :: rest) :
    readOperand setting ('(' :: (cs ++ ')' :: rest)) = ok f rest := by
  rw [readOperand_opened (skipBlanks_cons _ (by decide)), hread, bind_ok,
    readClosing_of_closed hclosed]

theorem readOperand_unopened (h : ∀ inner, skipBlanks cs ≠ '(' :: inner) :
    readOperand setting cs =
      match dropKeyword? ['n', 'o', 't'] (skipBlanks cs) with
      | some rest => (readPath (skipBlanks rest)).map .missing
      | none => readComparison setting (skipBlanks cs) := by
  rw [readOperand.eq_def]
  split
  · rename_i inner heq
    exact absurd heq (h inner)
  · rfl

theorem advances_readPath (cs : List Char) : Advances cs (readPath cs) := by
  unfold readPath
  refine Advances.andThen ?_ fun segments rest =>
    within_check (List.suffix_refl _) (List.suffix_refl _) _
  fun_cases readSegments cs with
  | case1 => exact nofun
  | case2 segment rest hread =>
    have hlength := length_readNameOr_lt hread
    simp only [List.length_cons] at hlength
    exact advances_of_within ((within_readSegments rest).map _) (by omega)
  | case3 => exact nofun
  | case4 segment rest _ _ hread =>
    rintro _ _ ⟨⟩
    exact length_readNameOr_lt hread

theorem advances_readOperand (setting : Setting) (cs : List Char) :
    Advances cs (readOperand setting cs) := by
  have hskip := length_skipBlanks_le cs
  by_cases hopen : ∃ inner, skipBlanks cs = '(' :: inner
  · obtain ⟨inner, hopen⟩ := hopen
    rw [hopen, List.length_cons] at hskip
    rw [readOperand_opened hopen]
    exact advances_of_within ((within_readOr setting inner).andThen within_readClosing) hskip
  · rw [readOperand_unopened (not_exists.1 hopen)]
    split
    · rename_i rest hword
      have hrest := length_dropKeyword?_lt (List.cons_ne_nil _ _) hword
      have hpath := (within_readPath (skipBlanks rest)).mono (skipBlanks_suffix rest)
      exact advances_of_within (hpath.map _) (by omega)
    · intro f rest hread
      rw [readComparison_eq] at hread
      have hlength := (advances_readPath (skipBlanks cs)).andThen
        (within_readBehindPath setting) f rest hread
      omega

theorem readOperand_congr (h : skipBlanks cs = skipBlanks cs') :
    readOperand setting cs = readOperand setting cs' := by
  rw [readOperand.eq_def, readOperand.eq_def, h]

/-- Nothing is read from blanks alone. -/
theorem skipBlanks_ne_nil_of_readOperand (h : readOperand setting cs = ok f rest) :
    skipBlanks cs ≠ [] := by
  intro hnil
  rw [readOperand_congr (hnil.trans skipBlanks_nil.symm)] at h
  exact absurd (advances_readOperand setting [] f rest h) (Nat.not_lt_zero _)

/-! ## Levels -/

/-- A level of the grammar: `all` reads an item and, with `tail`, the items that `word` joins
to it. -/
structure Level (word : List Char) (join : Filter → Filter → Filter)
    (item all : List Char → Outcome Filter) (tail : Filter → List Char → Outcome Filter) :
    Prop where
  all_eq : ∀ cs, all cs = (item cs).bind tail
  tail_end : ∀ left cs, dropKeyword? word (skipBlanks cs) = none →
    tail left cs = ok left (skipBlanks cs)
  tail_join : ∀ left cs rest, dropKeyword? word (skipBlanks cs) = some rest →
    tail left cs = (item rest).bind fun right => tail (join left right)
  /-- Blanks in front of an item do not matter. -/
  item_congr : ∀ cs cs', skipBlanks cs = skipBlanks cs' → item cs = item cs'
  item_within : ∀ cs, Within cs (item cs)
  tail_within : ∀ left cs, Within cs (tail left cs)
  isCompound_join : ∀ left right, (join left right).isCompound = true
  isName : ∀ c ∈ word, isNameChar c = true
  isWord : word ≠ []

theorem level_and (setting : Setting) :
    Level ['a', 'n', 'd'] .and (readOperand setting) (readAnd setting) (readAndRest setting) where
  all_eq cs := by
    rw [readAnd.eq_def]
    cases hread : readOperand setting cs with
    | fail => rfl
    | ok left rest => exact if_pos (advances_readOperand setting cs left rest hread)
  tail_end left cs h := by
    rw [readAndRest.eq_def]
    split
    · rfl
    · rename_i heq
      rw [h] at heq
      cases heq
  tail_join left cs rest h := by
    rw [readAndRest.eq_def]
    split
    · rename_i heq
      rw [h] at heq
      cases heq
    · rename_i heq
      rw [h] at heq
      cases heq
      have hrest := length_dropKeyword?_le h
      have hskip := length_skipBlanks_le cs
      cases hread : readOperand setting rest with
      | fail => rfl
      | ok right rest' =>
        have hlength := advances_readOperand setting rest right rest' hread
        exact if_pos (by omega)
  item_congr _ _ := readOperand_congr
  item_within := within_readOperand setting
  tail_within := within_readAndRest setting
  isCompound_join _ _ := rfl
  isName := List.all_eq_true.1 (by decide)
  isWord := List.cons_ne_nil _ _

section

variable {join : Filter → Filter → Filter} {item all : List Char → Outcome Filter}
  {tail : Filter → List Char → Outcome Filter}

/-- How the items behind the first one are taken: from `left` and the text `cs` to what was
read and what is left. -/
inductive Run (word : List Char) (join : Filter → Filter → Filter)
    (item : List Char → Outcome Filter) : Filter → List Char → Filter → List Char → Prop where
  /-- The word that joins does not come next. -/
  | done {left : Filter} {cs : List Char} (hword : dropKeyword? word (skipBlanks cs) = none) :
    Run word join item left cs left (skipBlanks cs)
  /-- One more item is joined. -/
  | step {left right f : Filter} {cs mid rest' rest : List Char}
    (hword : dropKeyword? word (skipBlanks cs) = some mid) (hitem : item mid = ok right rest')
    (hrun : Run word join item (join left right) rest' f rest) : Run word join item left cs f rest

theorem Run.suffix (hwithin : ∀ cs, Within cs (item cs))
    (hrun : Run word join item left cs f rest) : rest <:+ cs := by
  induction hrun with
  | done => exact skipBlanks_suffix _
  | step hword hitem _ ih =>
    have hmid := (dropKeyword?_suffix hword).trans (skipBlanks_suffix _)
    exact ih.trans (((hwithin _).suffix_of_ok hitem).trans hmid)

/-- Once something is joined, the result is. -/
theorem Run.isCompound (hjoin : ∀ left right, (join left right).isCompound = true)
    (hrun : Run word join item left cs f rest) (hleft : left.isCompound = true) :
    f.isCompound = true := by
  induction hrun with
  | done => exact hleft
  | step _ _ _ ih => exact ih (hjoin _ _)

namespace Level

variable (h : Level word join item all tail)
include h

theorem tail_congr (hskip : skipBlanks cs = skipBlanks cs') : tail left cs = tail left cs' := by
  cases hword : dropKeyword? word (skipBlanks cs) with
  | none => rw [h.tail_end left cs hword, hskip, h.tail_end left cs' (hskip ▸ hword)]
  | some rest => rw [h.tail_join left cs rest hword, h.tail_join left cs' rest (hskip ▸ hword)]

/-- The word that joins, with spaces around it, is found. -/
theorem dropKeyword?_word (rest : List Char) :
    dropKeyword? word (skipBlanks (' ' :: (word ++ ' ' :: rest))) = some (' ' :: rest) := by
  have hstops : Stops isBlank (word ++ ' ' :: rest) := by
    obtain ⟨c, cs, rfl⟩ := List.exists_cons_of_ne_nil h.isWord
    exact Stops.cons (isBlank_of_isNameChar (h.isName c List.mem_cons_self))
  rw [skipBlanks_cons_space, skipBlanks_eq hstops]
  exact dropKeyword?_append (Stops.cons (by decide))

theorem all_congr (hskip : skipBlanks cs = skipBlanks cs') : all cs = all cs' := by
  rw [h.all_eq, h.all_eq, h.item_congr cs cs' hskip]

theorem all_advances (hitem : ∀ cs, Advances cs (item cs)) (cs : List Char) :
    Advances cs (all cs) := by
  rw [h.all_eq]
  exact (hitem cs).andThen h.tail_within

theorem exists_of_all (hread : all cs = ok f rest) :
    ∃ left rest', item cs = ok left rest' ∧ tail left rest' = ok f rest := by
  rw [h.all_eq] at hread
  exact exists_of_bind_eq_ok hread

theorem run_of_ok {left f : Filter} {cs rest : List Char} (hread : tail left cs = ok f rest) :
    Run word join item left cs f rest := by
  cases hword : dropKeyword? word (skipBlanks cs) with
  | none =>
    rw [h.tail_end left cs hword] at hread
    cases hread
    exact .done hword
  | some mid =>
    rw [h.tail_join left cs mid hword] at hread
    obtain ⟨right, rest', hitem, htail⟩ := exists_of_bind_eq_ok hread
    have hmid := length_dropKeyword?_lt h.isWord hword
    have hskip := length_skipBlanks_le cs
    have hrest := ((h.item_within mid).suffix_of_ok hitem).length_le
    exact .step hword hitem (run_of_ok htail)
termination_by cs.length

/-- What is not joined is the one item that was read. -/
theorem item_of_all (hread : all cs = ok f rest) (hplain : f.isCompound = false) :
    ∃ rest', item cs = ok f rest' ∧ rest = skipBlanks rest' := by
  obtain ⟨left, rest', hitem, htail⟩ := h.exists_of_all hread
  cases h.run_of_ok htail with
  | done => exact ⟨rest', hitem, rfl⟩
  | step _ _ hrun =>
    have hcompound := hrun.isCompound h.isCompound_join (h.isCompound_join _ _)
    rw [hplain] at hcompound
    cases hcompound

/-! ### More text behind -/

theorem run_behind (hmore : Stops isNameChar more)
    (hitem : ∀ mid, mid <:+ cs → Behind more (item mid) (item (mid ++ more)))
    (hrun : Run word join item left cs f rest) (hclear : Clear more rest) :
    ∃ rest', tail left (cs ++ more) = ok f rest' ∧ skipBlanks rest' = skipBlanks (rest ++ more) := by
  -- Every text on the way is clear, because what is left in the end is a part of it.
  induction hrun with
  | @done left cs hword =>
    have hskip := (hclear.mono (skipBlanks_suffix cs)).skipBlanks_append
    refine ⟨skipBlanks (cs ++ more), h.tail_end _ _ ?_, ?_⟩
    · rw [hskip, dropKeyword?_behind h.isName hmore, hword]
      rfl
    · rw [skipBlanks_skipBlanks, hclear.skipBlanks_append, hskip, skipBlanks_skipBlanks]
  | @step left right f cs mid rest' rest hword hread hrun ih =>
    have hmid : mid <:+ cs := (dropKeyword?_suffix hword).trans (skipBlanks_suffix cs)
    have hrest' : rest' <:+ cs := ((h.item_within mid).suffix_of_ok hread).trans hmid
    have hclear' := hclear.mono (hrun.suffix h.item_within)
    have hword' : dropKeyword? word (skipBlanks (cs ++ more)) = some (mid ++ more) := by
      rw [(hclear'.mono hrest').skipBlanks_append, dropKeyword?_behind h.isName hmore, hword]
      rfl
    obtain ⟨behind, hbehind, hskip⟩ := hitem mid hmid right rest' hread hclear'
    rw [h.tail_join _ _ _ hword', hbehind, bind_ok, h.tail_congr hskip]
    exact ih (fun mid hmid => hitem mid (hmid.trans hrest')) hclear

/-- If the items read alike in front of more text, so does the level. -/
theorem all_behind (hmore : Stops isNameChar more)
    (hitem : ∀ mid, mid <:+ cs → Behind more (item mid) (item (mid ++ more))) :
    Behind more (all cs) (all (cs ++ more)) := by
  intro f rest hread hclear
  obtain ⟨left, rest', hfirst, htail⟩ := h.exists_of_all hread
  have hsuffix := (h.item_within cs).suffix_of_ok hfirst
  have hrun := h.run_of_ok htail
  obtain ⟨behind, hbehind, hskip⟩ :=
    hitem cs (List.suffix_refl cs) left rest' hfirst (hclear.mono (hrun.suffix h.item_within))
  rw [h.all_eq, hbehind, bind_ok, h.tail_congr hskip]
  exact h.run_behind hmore (fun mid hmid => hitem mid (hmid.trans hsuffix)) hrun hclear

end Level

end

/-! ### Chains -/

/-- In front of every text of some kind, a text is read as a filter. The blanks in between
may be taken. -/
def ReadsBefore (kind : List Char → Prop) (read : List Char → Outcome Filter) (text : List Char)
    (f : Filter) : Prop :=
  ∀ more, kind more → ∃ rest, read (text ++ more) = ok f rest ∧ skipBlanks rest = skipBlanks more

/-- Texts with a word in front of each one. -/
def joinedText {ι : Type} (word : List Char) (text : ι → List Char) (items : List ι) : List Char :=
  items.flatMap fun i => ' ' :: (word ++ ' ' :: text i)

section

variable {join : Filter → Filter → Filter} {item all : List Char → Outcome Filter}
  {tail : Filter → List Char → Outcome Filter} {kind : List Char → Prop} {ι : Type}
  {text : ι → List Char} {filter : ι → Filter}

theorem joinedText_cons_append (i : ι) (items : List ι) : joinedText word text (i :: items) ++ more =
    ' ' :: (word ++ ' ' :: (text i ++ (joinedText word text items ++ more))) := by
  simp [joinedText]

theorem kind_joinedText (hjoined : ∀ rest, kind (' ' :: (word ++ ' ' :: rest)))
    (hmore : kind more) (items : List ι) : kind (joinedText word text items ++ more) := by
  cases items with
  | nil => exact hmore
  | cons i items =>
    rw [joinedText_cons_append]
    exact hjoined _

namespace Level

variable (h : Level word join item all tail)
include h

theorem tail_joinedText (hjoined : ∀ rest, kind (' ' :: (word ++ ' ' :: rest)))
    (hmore : kind more) (hend : dropKeyword? word (skipBlanks more) = none) {items : List ι}
    (hitems : ∀ i ∈ items, ReadsBefore kind item (text i) (filter i)) (left : Filter) :
    tail left (joinedText word text items ++ more) =
      ok ((items.map filter).foldl join left) (skipBlanks more) := by
  induction items generalizing left with
  | nil => exact h.tail_end left more hend
  | cons i items ih =>
    obtain ⟨rest, hread, hskip⟩ :=
      hitems i List.mem_cons_self _ (kind_joinedText hjoined hmore items)
    rw [joinedText_cons_append, h.tail_join _ _ _ (h.dropKeyword?_word _),
      h.item_congr _ _ (skipBlanks_cons_space _), hread, bind_ok, h.tail_congr hskip]
    exact ih (fun j hj => hitems j (List.mem_cons_of_mem i hj)) (join left (filter i))

/-- A chain of items joins to the left, in front of a text where items can end and the chain
does not go on. -/
theorem all_joinedText (hjoined : ∀ rest, kind (' ' :: (word ++ ' ' :: rest)))
    (hmore : kind more) (hend : dropKeyword? word (skipBlanks more) = none) {first : ι}
    {others : List ι}
    (hitems : ∀ i ∈ first :: others, ReadsBefore kind item (text i) (filter i)) :
    all (text first ++ (joinedText word text others ++ more)) =
      ok ((others.map filter).foldl join (filter first)) (skipBlanks more) := by
  obtain ⟨rest, hread, hskip⟩ :=
    hitems first List.mem_cons_self _ (kind_joinedText hjoined hmore others)
  rw [h.all_eq, hread, bind_ok, h.tail_congr hskip]
  exact h.tail_joinedText hjoined hmore hend
    (fun i hi => hitems i (List.mem_cons_of_mem first hi)) (filter first)

theorem readsBefore_joinedText (hjoined : ∀ rest, kind (' ' :: (word ++ ' ' :: rest)))
    {first : ι} {others : List ι}
    (hitems : ∀ i ∈ first :: others, ReadsBefore kind item (text i) (filter i)) :
    ReadsBefore (fun more => kind more ∧ dropKeyword? word (skipBlanks more) = none) all
      (text first ++ joinedText word text others)
      ((others.map filter).foldl join (filter first)) := by
  rintro more ⟨hmore, hend⟩
  refine ⟨skipBlanks more, ?_, skipBlanks_skipBlanks more⟩
  rw [List.append_assoc]
  exact h.all_joinedText hjoined hmore hend hitems

end Level

end

theorem advances_readAnd (setting : Setting) (cs : List Char) : Advances cs (readAnd setting cs) :=
  (level_and setting).all_advances (advances_readOperand setting) cs

theorem level_or (setting : Setting) :
    Level ['o', 'r'] .or (readAnd setting) (readOr setting) (readOrRest setting) where
  all_eq cs := by
    rw [readOr.eq_def]
    cases hread : readAnd setting cs with
    | fail => rfl
    | ok left rest => exact if_pos (advances_readAnd setting cs left rest hread)
  tail_end left cs h := by
    rw [readOrRest.eq_def]
    split
    · rfl
    · rename_i heq
      rw [h] at heq
      cases heq
  tail_join left cs rest h := by
    rw [readOrRest.eq_def]
    split
    · rename_i heq
      rw [h] at heq
      cases heq
    · rename_i heq
      rw [h] at heq
      cases heq
      have hrest := length_dropKeyword?_le h
      have hskip := length_skipBlanks_le cs
      cases hread : readAnd setting rest with
      | fail => rfl
      | ok right rest' =>
        have hlength := advances_readAnd setting rest right rest' hread
        exact if_pos (by omega)
  item_congr _ _ := (level_and setting).all_congr
  item_within := within_readAnd setting
  tail_within := within_readOrRest setting
  isCompound_join _ _ := rfl
  isName := List.all_eq_true.1 (by decide)
  isWord := List.cons_ne_nil _ _

theorem advances_readOr (setting : Setting) (cs : List Char) : Advances cs (readOr setting cs) :=
  (level_or setting).all_advances (advances_readAnd setting) cs

/-- If all operands read alike in front of more text, so does what they are joined to. -/
theorem behind_readOr (hmore : Stops isNameChar more)
    (hoperand : ∀ mid, mid <:+ cs →
      Behind more (readOperand setting mid) (readOperand setting (mid ++ more))) :
    Behind more (readOr setting cs) (readOr setting (cs ++ more)) :=
  (level_or setting).all_behind hmore fun _ hmid =>
    (level_and setting).all_behind hmore fun mid' hmid' => hoperand mid' (hmid'.trans hmid)

end Filter

end TagGrid
