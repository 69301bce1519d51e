import TagGrid.Proofs.Filter.Places
import TagGrid.Proofs.Zinc.GridPlaces
import TagGrid.Reader

/-! # Readers that are asked for one thing after another

A reader takes its text from the front, counts the lines of what it has taken, and is back in
the setting of data after every request, a failed one included.
-/

namespace TagGrid

open Zinc

/-- What a request reads from the front of a text. -/
def Request.read : (q : Request) → Setting → List Char → Outcome q.Result
  | scalar => readScalar
  | dict => readDict
  | grid => readGrid
  | grids => readGrids
  | filter => fun _ => Filter.readFilter .filter

theorem Request.within_read (q : Request) (setting : Setting) (cs : List Char) :
    (q.read setting cs).Within cs := by
  cases q with
  | scalar => exact within_readScalar setting cs
  | dict => exact within_readDict setting cs
  | grid => exact within_readGrid setting cs
  | grids => exact within_readGrids setting cs
  | filter => exact Filter.within_readFilter .filter cs

theorem linesBefore_append (front rest : List Char) :
    linesBefore (front ++ rest) rest = front.count '\n' := by
  unfold linesBefore
  rw [List.count_append, Nat.add_sub_cancel]

namespace Reader

variable {r : Reader} {text taken : List Char}

/-! ## One request -/

theorem exists_of_run_eq_ok {α : Type} {read : Setting → List Char → Outcome α} {value : α}
    (h : (r.run read).1 = .ok value) : ∃ rest, read r.setting r.rest = .ok value rest := by
  unfold run at h
  cases hread : read r.setting r.rest with
  | ok value' rest =>
    rw [hread] at h
    cases h
    exact ⟨rest, rfl⟩
  | fail fault place rest =>
    rw [hread] at h
    cases h

/-- A fault is reported on the line that the line feeds in front of its place count up to. -/
theorem run_eq_error {α : Type} {read : Setting → List Char → Outcome α} {fault : Fault}
    {front behind : List Char} (h : read .data (front ++ behind) = .failHere fault behind) :
    ((ofText (String.ofList (front ++ behind))).run read).1 =
      .error (fault.toError (1 + front.count '\n')) := by
  unfold run ofText
  rw [String.toList_ofList, h, ← linesBefore_append front behind]
  rfl

/-- The value that a text is stands at its front. -/
theorem exists_readValue_of_scalar {value : Option Value} (h : r.scalar.1 = .ok value) :
    ∃ rest, readValue r.setting (skipBlanks r.rest) = .ok value rest := by
  obtain ⟨rest, hread⟩ := exists_of_run_eq_ok h
  unfold readScalar at hread
  cases hvalue : readValue r.setting (skipBlanks r.rest) with
  | ok value' rest' =>
    rw [hvalue] at hread
    have hsame : ((readEnd rest').map fun _ => value').Yields (· = value') :=
      Outcome.Yields.last fun _ _ => rfl
    exact ⟨rest', by rw [hsame.of_ok hread]⟩
  | fail fault place rest' =>
    rw [hvalue] at hread
    cases hread

theorem run_rest {α : Type} (r : Reader) (read : Setting → List Char → Outcome α) :
    (r.run read).2.rest = (read r.setting r.rest).rest := by
  unfold run
  cases read r.setting r.rest with
  | ok => rfl
  | fail => rfl

theorem run_line {α : Type} (r : Reader) (read : Setting → List Char → Outcome α) :
    (r.run read).2.line = r.line + linesBefore r.rest (read r.setting r.rest).rest := by
  unfold run
  cases read r.setting r.rest with
  | ok => rfl
  | fail => rfl

theorem run_setting {α : Type} (r : Reader) (read : Setting → List Char → Outcome α) :
    (r.run read).2.setting = r.setting := by
  unfold run
  cases read r.setting r.rest with
  | ok => rfl
  | fail => rfl

/-- The setting of a filter is gone with it. -/
theorem ask_eq_run (r : Reader) (q : Request) : r.ask q = r.run q.read := by
  cases q with
  | scalar | dict | grid | grids => rfl
  | filter =>
    simp only [ask, filter, run, Request.read]
    cases Filter.readFilter .filter r.rest with
    | ok => rfl
    | fail => rfl

/-! ## Many requests -/

/-- The reader was started on `text` and has taken `taken` from its front. -/
structure HasTaken (r : Reader) (text taken : List Char) : Prop where
  split : text = taken ++ r.rest
  line : r.line = 1 + taken.count '\n'
  setting : r.setting = .data

theorem hasTaken_ofText (text : String) : (ofText text).HasTaken text.toList [] where
  split := rfl
  line := rfl
  setting := rfl

/-- A request takes more of the text, whatever comes of it. -/
theorem HasTaken.ask (h : r.HasTaken text taken) (q : Request) :
    ∃ more, r.rest = more ++ (r.ask q).2.rest ∧ (r.ask q).2.HasTaken text (taken ++ more) := by
  rw [ask_eq_run]
  obtain ⟨more, hmore⟩ := (q.within_read r.setting r.rest).rest_suffix
  rw [← run_rest] at hmore
  refine ⟨more, hmore.symm, ?_, ?_, ?_⟩
  · rw [h.split, List.append_assoc, hmore]
  · have hlines := linesBefore_append more (r.run q.read).2.rest
    rw [hmore] at hlines
    rw [run_line, ← run_rest, hlines, h.line, List.count_append, Nat.add_assoc]
  · exact (run_setting r q.read).trans h.setting

theorem HasTaken.after (h : r.HasTaken text taken) (requests : List Request) :
    ∃ taken', (r.after requests).HasTaken text taken' := by
  induction requests generalizing r taken with
  | nil => exact ⟨taken, h⟩
  | cons q requests ih =>
    obtain ⟨more, -, hnext⟩ := h.ask q
    exact ih hnext

end Reader

end TagGrid
