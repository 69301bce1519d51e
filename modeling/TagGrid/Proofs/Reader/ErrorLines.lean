import TagGrid.Json.Decode
import TagGrid.Proofs.Reader.Sessions

/-! # The lines of errors

A fault has a place in what the reader takes on account of a request, so its line lies between
the line before the request and the line after it. JSON has no lines: its errors are on line 0.
-/

namespace TagGrid

open Zinc

/-- A fault of the text, on one of the lines from `first` to `last`. -/
def Error.LocatedIn (first last : Nat) (e : Error) : Prop :=
  ∃ line message, e = .parse line message ∧ first ≤ line ∧ line ≤ last

theorem Zinc.Fault.Placed.toError_eq {fault : Fault} (h : fault.Placed) (line : Nat) :
    fault.toError line = .parse line fault.message := by
  cases fault with
  | refusal v => cases h
  | _ => rfl

theorem linesBefore_mono {text place rest : List Char} (h : rest <:+ place) :
    linesBefore text place ≤ linesBefore text rest := by
  obtain ⟨passed, rfl⟩ := h
  unfold linesBefore
  rw [List.count_append]
  omega

namespace Reader

variable {r : Reader} {e : Error}

theorem run_error_located {α : Type} {read : Setting → List Char → Outcome α}
    (hread : (read r.setting r.rest).Within r.rest) (he : (r.run read).1 = .error e) :
    e.LocatedIn r.line (r.run read).2.line := by
  rw [run_line]
  unfold run at he
  cases hout : read r.setting r.rest with
  | ok value rest =>
    rw [hout] at he
    cases he
  | fail fault place rest =>
    rw [hout] at he hread
    obtain ⟨hplaced, -, hrest⟩ := hread
    cases he
    refine ⟨_, _, hplaced.toError_eq _, Nat.le_add_right _ _, ?_⟩
    exact Nat.add_le_add_left (linesBefore_mono hrest) r.line

theorem ask_error_located {q : Request} (he : (r.ask q).1 = .error e) :
    e.LocatedIn r.line (r.ask q).2.line := by
  rw [ask_eq_run] at he ⊢
  exact run_error_located (q.within_read r.setting r.rest) he

end Reader

theorem Json.mapError_located {α : Type} {decoded : Except Json.Fault α} {e : Error}
    (h : decoded.mapError Json.Fault.toError = .error e) : e.LocatedIn 0 0 := by
  cases decoded with
  | ok value => cases h
  | error fault =>
    cases h
    exact ⟨0, fault.message, rfl, Nat.le_refl 0, Nat.le_refl 0⟩

/-- Whatever a reader was asked for before, an error of its next request is a fault of the text
on a line from the one where the reader was to the one where it is now, which is counted from
the text that it has taken. An error of a JSON tree is a fault of the tree on line 0. -/
theorem errors_are_located :
    (∀ (text : String) (earlier : List Request) (q : Request) (e : Error),
      let r := (Reader.ofText text).after earlier
      (r.ask q).1 = .error e →
        ∃ taken, text.toList = taken ++ (r.ask q).2.rest ∧
          e.LocatedIn r.line (1 + taken.count '\n')) ∧
    ∀ (tree : Json) (e : Error),
      (tree.toValue? = .error e ∨ tree.toDict? = .error e ∨ tree.toGrid? = .error e) →
        e.LocatedIn 0 0 := by
  constructor
  · intro text earlier q e r he
    obtain ⟨taken, htaken⟩ := (Reader.hasTaken_ofText text).after earlier
    obtain ⟨more, -, hnext⟩ := htaken.ask q
    have hlocated := Reader.ask_error_located he
    rw [hnext.line] at hlocated
    exact ⟨taken ++ more, hnext.split, hlocated⟩
  · intro tree e he
    rcases he with hvalue | hdict | hgrid
    · exact Json.mapError_located hvalue
    · exact Json.mapError_located hdict
    · exact Json.mapError_located hgrid

/-- A string is cut off by a line end, and the next request fails on the line after that. -/
theorem errors_are_located_after_failure :
    (∃ taken, "\n\"\n?".toList = taken ++ ['?'] ∧
      (Error.parse 3 "Expected end of input, not '?'").LocatedIn 2 (1 + taken.count '\n')) ∧
    (Error.parse 0 "JSON object is not a scalar value").LocatedIn 0 0 := by
  have hrequest : (((Reader.ofText "\n\"\n?").after [.scalar]).ask .dict).1 =
      .error (.parse 3 "Expected end of input, not '?'") := by with_unfolding_all rfl
  have hrest : (((Reader.ofText "\n\"\n?").after [.scalar]).ask .dict).2.rest = ['?'] := by
    with_unfolding_all rfl
  have hline : ((Reader.ofText "\n\"\n?").after [.scalar]).line = 2 := by
    with_unfolding_all rfl
  constructor
  · obtain ⟨taken, htaken, hlocated⟩ :=
      errors_are_located.1 "\n\"\n?" [.scalar] .dict _ hrequest
    rw [hrest] at htaken
    rw [hline] at hlocated
    exact ⟨taken, htaken, hlocated⟩
  · exact errors_are_located.2 (.object []) _ (.inl rfl)

end TagGrid
