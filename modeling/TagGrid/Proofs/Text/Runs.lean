import TagGrid.Zinc.Outcome

/-! # Runs of characters

A reader takes the longest run of characters of one class. When a run is followed by
a text that does not start with a character of its class, taking the longest run
gives the run back and leaves exactly that text.
-/

namespace TagGrid.Text

/-- The text does not start with a character of the class. -/
def Stops (p : Char → Bool) (cs : List Char) : Prop := ∀ c ∈ cs.head?, p c = false

namespace Stops

variable {p : Char → Bool} {c : Char} {run rest : List Char}

theorem nil : Stops p [] := by
  intro c hc
  simp at hc

theorem cons (h : p c = false) : Stops p (c :: rest) := by
  intro d hd
  obtain rfl : c = d := by simpa using hd
  exact h

theorem takeWhile_append (hrun : ∀ c ∈ run, p c = true) (hrest : Stops p rest) :
    (run ++ rest).takeWhile p = run := by
  rw [List.takeWhile_append_of_pos hrun]
  cases rest with
  | nil => simp
  | cons c rest => rw [List.takeWhile_cons_of_neg (by simp [hrest c rfl]), List.append_nil]

theorem dropWhile_append (hrun : ∀ c ∈ run, p c = true) (hrest : Stops p rest) :
    (run ++ rest).dropWhile p = rest := by
  rw [List.dropWhile_append_of_pos hrun]
  cases rest with
  | nil => rfl
  | cons c rest => exact List.dropWhile_cons_of_neg (by simp [hrest c rfl])

theorem dropWhile_eq (h : Stops p rest) : rest.dropWhile p = rest :=
  dropWhile_append (List.forall_mem_nil _) h

theorem dropWhile (p : Char → Bool) (cs : List Char) : Stops p (cs.dropWhile p) := by
  intro c hc
  have hhead := List.head?_dropWhile_not p cs
  rw [Option.mem_def.1 hc] at hhead
  simpa using hhead

/-- A run ends before a text that starts with no character of its class, wherever it
started. -/
theorem takeWhile_behind (h : Stops p rest) (cs : List Char) :
    (cs ++ rest).takeWhile p = cs.takeWhile p := by
  induction cs with
  | nil => exact takeWhile_append (List.forall_mem_nil _) h
  | cons c cs ih => simp only [List.cons_append, List.takeWhile_cons, ih]

theorem dropWhile_behind (h : Stops p rest) (cs : List Char) :
    (cs ++ rest).dropWhile p = cs.dropWhile p ++ rest := by
  induction cs with
  | nil => exact h.dropWhile_eq
  | cons c cs ih =>
    simp only [List.cons_append, List.dropWhile_cons, ih]
    split <;> rfl

end Stops

variable {p : Char → Bool} {cs : List Char}

/-- More text behind a text does not change how it starts. -/
theorem append_ne_cons {c : Char} (hne : cs ≠ []) (h : ∀ rest, cs ≠ c :: rest)
    (more rest : List Char) : cs ++ more ≠ c :: rest := by
  cases cs with
  | nil => exact absurd rfl hne
  | cons d cs =>
    intro heq
    obtain ⟨rfl, -⟩ := List.cons.inj heq
    exact h cs rfl

/-- A run that ends within a text ends there whatever stands behind the text. -/
theorem takeWhile_append_of_ne_nil (h : cs.dropWhile p ≠ []) (more : List Char) :
    (cs ++ more).takeWhile p = cs.takeWhile p := by
  induction cs with
  | nil => exact absurd rfl h
  | cons c cs ih =>
    rw [List.dropWhile_cons] at h
    simp only [List.cons_append, List.takeWhile_cons]
    split
    · rename_i hc
      rw [if_pos hc] at h
      rw [ih h]
    · rfl

theorem dropWhile_append_of_ne_nil (h : cs.dropWhile p ≠ []) (more : List Char) :
    (cs ++ more).dropWhile p = cs.dropWhile p ++ more := by
  rw [List.dropWhile_append, if_neg (mt List.isEmpty_iff.1 h)]

end TagGrid.Text

namespace TagGrid.Zinc

open Text

variable {cs : List Char}

/-- Nothing is skipped in front of a character that is no space. -/
theorem skipSpaces_eq {cs : List Char} (h : Stops isSpace cs) : skipSpaces cs = cs := h.dropWhile_eq

theorem skipSpaces_cons_space (cs : List Char) : skipSpaces (' ' :: cs) = skipSpaces cs := rfl

theorem skipSpaces_cons {c : Char} (cs : List Char) (h : isSpace c = false) :
    skipSpaces (c :: cs) = c :: cs :=
  skipSpaces_eq (Stops.cons h)

/-- What is left after skipping starts with no space. -/
theorem stops_skipSpaces (cs : List Char) : Stops isSpace (skipSpaces cs) :=
  Stops.dropWhile isSpace cs

theorem skipSpaces_append (h : skipSpaces cs ≠ []) (more : List Char) :
    skipSpaces (cs ++ more) = skipSpaces cs ++ more := dropWhile_append_of_ne_nil h more

theorem skipSpaces_skipSpaces (cs : List Char) : skipSpaces (skipSpaces cs) = skipSpaces cs :=
  skipSpaces_eq (stops_skipSpaces cs)

/-- Nothing is skipped in front of a character that is no blank. -/
theorem skipBlanks_eq {cs : List Char} (h : Stops isBlank cs) : skipBlanks cs = cs := h.dropWhile_eq

@[simp] theorem skipBlanks_nil : skipBlanks [] = [] := rfl

theorem skipBlanks_cons_space (cs : List Char) : skipBlanks (' ' :: cs) = skipBlanks cs := rfl

theorem skipBlanks_cons {c : Char} (cs : List Char) (h : isBlank c = false) :
    skipBlanks (c :: cs) = c :: cs :=
  skipBlanks_eq (Stops.cons h)

/-- What is left after skipping starts with no blank. -/
theorem stops_skipBlanks (cs : List Char) : Stops isBlank (skipBlanks cs) :=
  Stops.dropWhile isBlank cs

theorem skipBlanks_append (h : skipBlanks cs ≠ []) (more : List Char) :
    skipBlanks (cs ++ more) = skipBlanks cs ++ more := dropWhile_append_of_ne_nil h more

theorem skipBlanks_append_of_eq_nil (h : skipBlanks cs = []) (more : List Char) :
    skipBlanks (cs ++ more) = skipBlanks more := by
  unfold skipBlanks at h ⊢
  rw [List.dropWhile_append, h]
  rfl

theorem skipBlanks_skipBlanks (cs : List Char) : skipBlanks (skipBlanks cs) = skipBlanks cs :=
  skipBlanks_eq (stops_skipBlanks cs)

/-- A name is read up to where no name goes on. -/
theorem readNameOr_append {start : Option Char → Fault} {c : Char} {cs rest : List Char}
    (halpha : c.isAlpha = true) (hchars : ∀ d ∈ c :: cs, isNameChar d = true)
    (hrest : Stops isNameChar rest) :
    readNameOr start (c :: cs ++ rest) = .ok (String.ofList (c :: cs)) rest := by
  have hread : readNameOr start (c :: cs ++ rest) =
      .ok (String.ofList ((c :: cs ++ rest).takeWhile isNameChar))
        ((c :: cs ++ rest).dropWhile isNameChar) := if_pos halpha
  rw [hread, Stops.takeWhile_append hchars hrest, Stops.dropWhile_append hchars hrest]

end TagGrid.Zinc
