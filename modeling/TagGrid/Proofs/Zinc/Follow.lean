import TagGrid.Proofs.Text.Runs
import TagGrid.Zinc.ValueReader

/-! # What can stand after a value

The text of a value has no end mark of its own in most kinds: a reader takes the longest
run of fitting characters. So a value is read back exactly only if what follows cannot
belong to it. `Follows` says which texts these are. They cover every place where a value
is written: the end of the text, a line end, the next tag, cell or item, and a closing
bracket, brace or parenthesis.
-/

namespace TagGrid.Zinc

open Text

/-- The characters that can stand after a value. -/
def delimiters : List Char := [' ', '\t', '\r', '\n', ',', ']', ')', '\x7d']

/-- A text that goes on after a value and cannot belong to it. A quote after one space is
left out, because it would start the display text of a ref. -/
def Follows : List Char → Prop
  | [] => True
  | c :: rest => c ∈ delimiters ∧ (c = ' ' → rest.head? ≠ some '"')

/-- A text is read as a value wherever a value can stand. -/
def ReadsBack (text : List Char) (v : Value) : Prop :=
  ∀ setting rest, Follows rest → readValue setting (text ++ rest) = .ok (some v) rest

namespace Follows

variable {p : Char → Bool} {c : Char} {rest : List Char}

theorem nil : Follows [] := trivial

theorem cons (hc : c ∈ delimiters) (hspace : c ≠ ' ') : Follows (c :: rest) :=
  ⟨hc, fun h => absurd h hspace⟩

theorem space (hc : c ≠ '"') : Follows (' ' :: c :: rest) :=
  ⟨by decide, fun _ => by simpa using hc⟩

/-- No run of a class that holds no delimiter goes on in what follows a value. -/
theorem stops (h : Follows rest) (hp : delimiters.any p = false) : Stops p rest := by
  cases rest with
  | nil => exact Stops.nil
  | cons c rest =>
    have hc := List.any_eq_false.1 hp c h.1
    exact Stops.cons (Bool.eq_false_iff.2 hc)

end Follows

namespace Outcome

variable {α β : Type}

@[simp] theorem bind_ok (value : α) (rest : List Char) (next : α → List Char → Outcome β) :
    (ok value rest).bind next = next value rest := rfl

@[simp] theorem map_ok (f : α → β) (value : α) (rest : List Char) :
    (ok value rest).map f = ok (f value) rest := rfl

@[simp] theorem check_ok (place rest : List Char) (value : α) :
    check place rest (.ok value) = ok value rest := rfl

@[simp] theorem pass_ok (rest : List Char) (value : α) :
    pass rest (.ok value) = ok value rest := rfl

@[simp] theorem examine_ok (rest : List Char) (value : α) :
    examine rest (.ok value) = ok value rest := rfl

theorem map_bind {γ : Type} (o : Outcome α) (next : α → List Char → Outcome β) (f : β → γ) :
    (o.bind next).map f = o.bind fun value rest => (next value rest).map f := by
  cases o with
  | ok => rfl
  | fail => rfl

theorem map_nil_append (o : Outcome (List α)) : o.map ([] ++ ·) = o := by
  cases o with
  | ok => rfl
  | fail => rfl

theorem map_append_cons (before : List α) (item : α) (o : Outcome (List α)) :
    (o.map (item :: ·)).map (before ++ ·) = o.map (before ++ [item] ++ ·) := by
  cases o with
  | ok items rest => exact congrArg (ok · rest) (List.append_cons before item items)
  | fail => rfl

end Outcome

@[simp] theorem readChar_cons (c : Char) (rest : List Char) :
    readChar c (c :: rest) = .ok () rest := by
  simp [readChar]

theorem eq_of_readChar {wanted : Char} {cs rest : List Char}
    (h : readChar wanted cs = .ok () rest) : cs = wanted :: rest := by
  unfold readChar at h
  split at h
  · cases h
  · split at h
    · cases h
      subst_vars
      rfl
    · cases h

end TagGrid.Zinc
