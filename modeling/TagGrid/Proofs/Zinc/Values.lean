import TagGrid.Proofs.Zinc.Atoms
import TagGrid.Proofs.Zinc.Progress

/-! # Reading values back

The items of a list end at a comma or the closing bracket, and both can follow a value, so
lists of any depth are read back by induction on the value.
-/

namespace TagGrid.Zinc

open Text Outcome

variable {c : Char} {rest : List Char}

/-- The characters that the text of a value starts with. -/
def startsValue (c : Char) : Bool :=
  c.isAlphanum || ['-', '"', '\x60', '@', '^', '['].contains c

theorem startsValue_of_isDigit (h : c.isDigit = true) : startsValue c = true := by
  simp [startsValue, Char.isAlphanum, h]

theorem startsValue_spec (h : startsValue c = true) :
    c ∉ delimiters ∧ isBlank c = false ∧ isSpace c = false := by
  refine ⟨?_, ?_⟩
  · intro hmem
    have hdelimiters : delimiters.any startsValue = false := by decide
    exact List.any_eq_false.1 hdelimiters c hmem h
  · have hbounds : 32 < c.toNat ∧ c.toNat < 127 := by
      simp only [startsValue, Char.isAlphanum, Bool.or_eq_true, isAlpha_iff, isDigit_iff,
        List.contains_cons, List.contains_nil, beq_iff_eq, Bool.or_false] at h
      rcases h with h | rfl | rfl | rfl | rfl | rfl | rfl
      · omega
      all_goals decide
    exact ⟨isBlank_eq_false hbounds.1 hbounds.2, isSpace_eq_false hbounds.1 hbounds.2⟩

theorem exists_number_cons (n : Number) : ∃ c cs, n.text = c :: cs ∧ startsValue c = true := by
  obtain ⟨value, unit, valid⟩ := n
  cases value with
  | nan => exact ⟨'N', _, rfl, rfl⟩
  | infinity negative =>
    cases negative with
    | true => exact ⟨'-', _, rfl, rfl⟩
    | false => exact ⟨'I', _, rfl, rfl⟩
  | finite negative grains h =>
    obtain ⟨c, cs, hcs, hc⟩ := (Double.plainText_shortest h).exists_cons
    unfold Number.text
    rw [Double.text_finite, hcs]
    cases negative with
    | true => exact ⟨'-', _, rfl, rfl⟩
    | false => exact ⟨c, _, rfl, startsValue_of_isDigit hc⟩

/-- No text of a value is empty, and none starts like something else. -/
theorem exists_zinc_cons (v : Value) : ∃ c cs, v.zinc = c :: cs ∧ startsValue c = true := by
  cases v with
  | marker => exact ⟨'M', _, rfl, rfl⟩
  | remove => exact ⟨'R', _, rfl, rfl⟩
  | na => exact ⟨'N', _, rfl, rfl⟩
  | bool b =>
    cases b with
    | true => exact ⟨'T', _, rfl, rfl⟩
    | false => exact ⟨'F', _, rfl, rfl⟩
  | number n => exact exists_number_cons n
  | str s => exact ⟨'"', _, rfl, rfl⟩
  | uri s => exact ⟨'\x60', _, rfl, rfl⟩
  | ref r => exact ⟨'@', _, rfl, rfl⟩
  | date d =>
    obtain ⟨c, cs, hcs, hc⟩ := exists_date_cons d
    exact ⟨c, cs, hcs, startsValue_of_isDigit hc⟩
  | time t =>
    obtain ⟨c, cs, hcs, hc⟩ := exists_time_cons t
    exact ⟨c, cs, hcs, startsValue_of_isDigit hc⟩
  | dateTime t =>
    obtain ⟨c, cs, hcs, hc⟩ := exists_dateTime_cons t
    exact ⟨c, cs, hcs, startsValue_of_isDigit hc⟩
  | bin m => exact ⟨'B', _, rfl, rfl⟩
  | coord c => exact ⟨'C', _, rfl, rfl⟩
  | symbol s => exact ⟨'^', _, rfl, rfl⟩
  | list items => exact ⟨'[', _, rfl, rfl⟩
  | typed t =>
    obtain ⟨c, cs, hname, hupper, -⟩ := t.exists_typeName_cons
    refine ⟨c, cs ++ '(' :: strLiteral t.text ++ [')'], by simp [Value.zinc, hname], ?_⟩
    simp [startsValue, Char.isAlphanum, isAlpha_of_isUpper hupper]

theorem skipSpaces_zinc (v : Value) (rest : List Char) :
    skipSpaces (v.zinc ++ rest) = v.zinc ++ rest := by
  obtain ⟨c, cs, hcs, hc⟩ := exists_zinc_cons v
  rw [hcs, List.cons_append]
  exact skipSpaces_cons _ (startsValue_spec hc).2.2

theorem skipBlanks_zinc (v : Value) (rest : List Char) :
    skipBlanks (v.zinc ++ rest) = v.zinc ++ rest := by
  obtain ⟨c, cs, hcs, hc⟩ := exists_zinc_cons v
  rw [hcs, List.cons_append]
  exact skipBlanks_cons _ (startsValue_spec hc).2.1

theorem zinc_list_append (items : List Value) (rest : List Char) :
    (Value.list items).zinc ++ rest = '[' :: (Value.zincItems items ++ ']' :: rest) := by
  simp [Value.zinc]

theorem follows_item (hc : c = ',' ∨ c = ']') (rest : List Char) : Follows (c :: rest) := by
  rcases hc with rfl | rfl
  · exact Follows.cons (by decide) (by decide)
  · exact Follows.cons (by decide) (by decide)

/-- One step of a list: an item whose text a comma or the closing bracket follows. -/
theorem readItems_zinc {v : Value} (hread : ReadsBack v.zinc v) (hc : c = ',' ∨ c = ']')
    (setting : Setting) (rest : List Char) :
    readItems setting (v.zinc ++ c :: rest) =
      if c = ',' then (readItems setting rest).map (v :: ·) else ok [v] rest := by
  have hfollows := follows_item hc rest
  have hskip : skipSpaces (c :: rest) = c :: rest := by
    rcases hc with rfl | rfl
    · exact skipSpaces_cons rest rfl
    · exact skipSpaces_cons rest rfl
  have hopen : ∀ rest', skipSpaces (v.zinc ++ c :: rest) ≠ ']' :: rest' := by
    intro rest' heq
    obtain ⟨d, ds, hds, hd⟩ := exists_zinc_cons v
    rw [skipSpaces_zinc, hds, List.cons_append] at heq
    obtain ⟨rfl, -⟩ := List.cons.inj heq
    exact absurd (by decide) (startsValue_spec hd).1
  rw [readItems_item hopen, skipSpaces_zinc, hread setting _ hfollows, bind_ok]
  unfold readBehindItem
  rw [hskip]
  rcases hc with rfl | rfl
  · rfl
  · simp

mutual

/-- The text of a safe value is read as that value. -/
theorem readsBack_zinc (v : Value) (hsafe : v.zincSafe = true) : ReadsBack v.zinc v := by
  cases v with
  | marker => exact readsBack_marker
  | remove => exact readsBack_remove
  | na => exact readsBack_na
  | bool b => exact readsBack_bool b
  | number n => exact readsBack_number hsafe
  | str s => exact readsBack_str s
  | uri s => exact readsBack_uri s
  | ref r => exact readsBack_ref r
  | date d => exact readsBack_date (Bool.and_eq_true_iff.1 hsafe).1
  | time t => exact readsBack_time t
  | dateTime t => exact readsBack_dateTime (Bool.and_eq_true_iff.1 hsafe).1
  | bin m => exact readsBack_bin m
  | coord c => exact readsBack_coord c
  | symbol s => exact readsBack_symbol s
  | list items =>
    intro setting rest _
    rw [zinc_list_append, readValue_list, readItems_zincItems items hsafe]
    rfl
  | typed t => exact readsBack_typed hsafe
termination_by sizeOf v

theorem readItems_zincItems (items : List Value)
    (hsafe : Value.everyItem (fun v => v.yearFits && v.wordSafe) items = true)
    (setting : Setting) (rest : List Char) :
    readItems setting (Value.zincItems items ++ ']' :: rest) = ok items rest := by
  cases items with
  | nil => exact readItems_closed (skipSpaces_cons rest rfl) setting
  | cons v items =>
    simp only [Value.everyItem, Bool.and_eq_true] at hsafe
    have hread := readsBack_zinc v hsafe.1
    cases items with
    | nil => exact readItems_zinc hread (.inr rfl) setting rest
    | cons w items =>
      have hitems := readItems_zincItems (w :: items) hsafe.2 setting rest
      simp only [Value.zincItems, List.append_assoc, List.cons_append]
      rw [readItems_zinc hread (.inl rfl), if_pos rfl, hitems]
      rfl
termination_by sizeOf items

end

end TagGrid.Zinc
