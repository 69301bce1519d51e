import TagGrid.Proofs.Zinc.Atoms
import TagGrid.Proofs.Zinc.Places

/-! # The words of the truth values

A truth value is a word and nothing but a word. Which words it can be depends on the setting
alone: `true` and `false` are words of filters, and in data they are unknown.
-/

namespace TagGrid.Zinc

open Text Outcome

variable {setting : Setting} {b : Bool} {cs word rest : List Char}

/-- The words that are read as a truth value. -/
def truthWords : Setting → Bool → List (List Char)
  | .data, true => [['T']]
  | .data, false => [['F']]
  | .filter, true => [['T'], ['t', 'r', 'u', 'e']]
  | .filter, false => [['F'], ['f', 'a', 'l', 's', 'e']]

theorem truthWords_spec (h : word ∈ truthWords setting b) :
    word.head?.any Char.isAlpha = true ∧ ∀ c ∈ word, isNameChar c = true := by
  have hwords : (truthWords setting b).all
      (fun word => word.head?.any Char.isAlpha && word.all isNameChar) = true := by
    cases setting <;> cases b <;> decide
  have hword := List.all_eq_true.1 hwords word h
  rw [Bool.and_eq_true, List.all_eq_true] at hword
  exact hword

theorem keyword?_eq_bool_iff :
    keyword? setting word = some (some (.bool b)) ↔ word ∈ truthWords setting b := by
  constructor
  · intro h
    unfold keyword? at h
    -- The keywords come one after another: four others, the truth values, two numbers.
    iterate 4
      obtain ⟨-, h⟩ | ⟨-, h⟩ := ite_eq_iff.1 h
      · cases h
    obtain ⟨rfl, h⟩ | ⟨-, h⟩ := ite_eq_iff.1 h
    · cases h
      cases setting <;> decide
    obtain ⟨rfl, h⟩ | ⟨-, h⟩ := ite_eq_iff.1 h
    · cases h
      cases setting <;> decide
    iterate 2
      obtain ⟨-, h⟩ | ⟨-, h⟩ := ite_eq_iff.1 h
      · cases h
    obtain ⟨⟨rfl, rfl⟩, h⟩ | ⟨-, h⟩ := ite_eq_iff.1 h
    · cases h
      decide
    obtain ⟨⟨rfl, rfl⟩, h⟩ | ⟨-, h⟩ := ite_eq_iff.1 h
    · cases h
      decide
    · cases h
  · intro h
    cases setting with
    | data =>
      cases b with
      | true => cases List.mem_singleton.1 h; rfl
      | false => cases List.mem_singleton.1 h; rfl
    | filter =>
      cases b with
      | true =>
        rcases List.mem_cons.1 h with rfl | h
        · rfl
        · cases List.mem_singleton.1 h; rfl
      | false =>
        rcases List.mem_cons.1 h with rfl | h
        · rfl
        · cases List.mem_singleton.1 h; rfl

/-! ## Values of other kinds -/

theorem ne_bool {o : Outcome (Option Value)} (h : Yields (fun v => v.bind Value.bool? = none) o) :
    o ≠ ok (some (.bool b)) rest := by
  intro heq
  cases h.of_ok heq

theorem bool?_readDigitLiteral (cs : List Char) :
    Yields (fun v => v.bool? = none) (readDigitLiteral cs) := by
  apply yields_readDigitLiteral
  · intro n
    rfl
  · intro t cs
    exact yields_readToken (fun _ _ => rfl) (fun _ => rfl) (Yields.of_forall fun _ => rfl)
      fun _ _ => rfl

theorem bool?_readNegative (cs : List Char) :
    Yields (fun v => v.bool? = none) (readNegative cs) := by
  unfold readNegative
  split
  · simp only
    split
    · exact rfl
    · trivial
  · split
    · exact bool?_readDigitLiteral _
    · trivial
  · trivial

/-- A mark at the front of a value tells its kind, so only a word can be a truth value. -/
theorem readWordValue_of_bool (h : readValue setting cs = ok (some (.bool b)) rest) :
    readWordValue setting cs = ok (some (.bool b)) rest := by
  rw [readValue.eq_def] at h
  split at h
  · exact absurd h (ne_bool (Yields.last fun _ _ => rfl))
  · unfold readAtom at h
    split at h
    · cases h
    · exact absurd h (ne_bool ((bool?_readNegative _).map fun _ hv => hv))
    · exact absurd h (ne_bool (Yields.last fun _ _ => rfl))
    · exact absurd h (ne_bool (Yields.last fun _ _ => rfl))
    · exact absurd h (ne_bool (Yields.last fun _ _ => rfl))
    · exact absurd h (ne_bool (Yields.last fun _ _ => rfl))
    · split at h
      · exact absurd h (ne_bool ((bool?_readDigitLiteral _).map fun _ hv => hv))
      · split at h
        · exact h
        · cases h

/-! ## Truth values -/

theorem readWordValue_bool (h : readWordValue setting cs = ok (some (.bool b)) rest) :
    cs.takeWhile isNameChar ∈ truthWords setting b ∧ rest = cs.dropWhile isNameChar := by
  unfold readWordValue at h
  simp only at h
  split at h
  · rename_i hkeyword
    cases h
    exact ⟨keyword?_eq_bool_iff.1 hkeyword, rfl⟩
  · split at h
    · split_ifs at h
      · exact absurd h (ne_bool (Yields.last fun _ _ => rfl))
      · exact absurd h (ne_bool (Yields.last fun _ _ => rfl))
      · exact absurd h (ne_bool (Yields.last fun _ _ => rfl))
      · cases h
    · cases h

/-- A truth value is read exactly where one of its words stands and no name goes on. -/
theorem readValue_eq_bool_iff :
    readValue setting cs = ok (some (.bool b)) rest ↔
      ∃ word ∈ truthWords setting b, cs = word ++ rest ∧ Stops isNameChar rest := by
  constructor
  · intro h
    obtain ⟨hword, hrest⟩ := readWordValue_bool (readWordValue_of_bool h)
    refine ⟨_, hword, ?_, ?_⟩
    · rw [hrest, List.takeWhile_append_dropWhile]
    · rw [hrest]
      exact Stops.dropWhile isNameChar cs
  · rintro ⟨word, hword, rfl, hrest⟩
    obtain ⟨halpha, hname⟩ := truthWords_spec hword
    have hkeyword := keyword?_eq_bool_iff.2 hword
    cases word with
    | nil => cases halpha
    | cons c word =>
      rw [List.cons_append, readValue_alpha halpha, ← List.cons_append]
      exact readWordValue_keyword hname hkeyword hrest

end TagGrid.Zinc
