import TagGrid.Proofs.Filter.ReadBack
import TagGrid.Proofs.Reader.Sessions
import TagGrid.Proofs.Zinc.TruthWords

/-! # Requests do not depend on earlier ones

What a reader brings is what a fresh reader of the unread text brings: between requests there is
nothing but the text and the number of its first line, and the setting of a filter never
outlasts the filter.
-/

namespace TagGrid

open Text Zinc Zinc.Outcome

/-- The same error in a text of which so many lines are gone before. -/
def Error.below (lines : Nat) : Error → Error
  | parse line message => .parse (line + lines) message
  | e => e

theorem Zinc.Fault.toError_below (fault : Fault) (line lines : Nat) :
    (fault.toError line).below lines = fault.toError (line + lines) := by
  cases fault with
  | _ => rfl

namespace Reader

variable {r : Reader} {b : Bool}

/-- Reading only looks at the unread text and the setting; lines are counted afterwards. -/
theorem run_below {α : Type} (line lines : Nat) (rest : List Char) (setting : Setting)
    (read : Setting → List Char → Outcome α) :
    (run ⟨line + lines, rest, setting⟩ read).1 =
        (run ⟨line, rest, setting⟩ read).1.mapError (Error.below lines) ∧
      (run ⟨line + lines, rest, setting⟩ read).2.rest =
        (run ⟨line, rest, setting⟩ read).2.rest := by
  unfold run
  cases read setting rest with
  | ok value rest' => exact ⟨rfl, rfl⟩
  | fail fault place rest' =>
    refine ⟨?_, rfl⟩
    simp only [Except.mapError, Fault.toError_below, Nat.add_right_comm]

theorem HasTaken.ask_eq {text taken : List Char} (h : r.HasTaken text taken) (q : Request) :
    (r.ask q).1 = ((ofText (String.ofList r.rest)).ask q).1.mapError
        (Error.below (taken.count '\n')) ∧
      (r.ask q).2.rest = ((ofText (String.ofList r.rest)).ask q).2.rest := by
  obtain ⟨line, rest, setting⟩ := r
  obtain ⟨-, rfl, rfl⟩ := h
  rw [ask_eq_run, ask_eq_run]
  unfold ofText
  rw [String.toList_ofList]
  exact run_below 1 (taken.count '\n') rest .data q.read

/-- A value alone is a truth value only by the words of data. -/
theorem head?_of_scalar_bool (hsetting : r.setting = .data)
    (h : r.scalar.1 = .ok (some (.bool b))) :
    (skipBlanks r.rest).head? = some (if b then 'T' else 'F') := by
  obtain ⟨rest, hread⟩ := exists_readValue_of_scalar h
  rw [hsetting] at hread
  obtain ⟨word, hword, hstart, -⟩ := readValue_eq_bool_iff.1 hread
  rw [hstart]
  cases b with
  | true => cases List.mem_singleton.1 hword; rfl
  | false => cases List.mem_singleton.1 hword; rfl

theorem readValue_bool_of_data (hsetting : r.setting = .data) {cs behind : List Char} :
    readValue r.setting cs = ok (some (.bool b)) behind ↔
      cs = (if b then 'T' else 'F') :: behind ∧ Stops isNameChar behind := by
  rw [hsetting, readValue_eq_bool_iff]
  cases b with
  | true => simp [truthWords]
  | false => simp [truthWords]

/-- A filter that is written out is read by any reader, in whatever setting that is. -/
theorem filter_of_text {f : Filter} (hsafe : f.zincSafe = true) (hrest : r.rest = f.text) :
    r.filter.1 = .ok f := by
  obtain ⟨c, cs, hcs, hblank⟩ := Filter.exists_text_cons f
  have halone := Filter.readsAlone f hsafe [] (.inl rfl)
  rw [List.append_nil, hcs] at halone
  have hread : Filter.readFilter .filter r.rest = ok f [] := by
    unfold Filter.readFilter
    rw [hrest, hcs, skipBlanks_cons cs hblank]
    simp only [halone]
    rfl
  unfold filter run
  simp only [hread]

end Reader

/-- Whatever a reader was asked for before, the next request brings what it brings from a fresh
reader of the unread text, with errors as many lines further down as were taken. The words
`true` and `false` are no truth values to it, but they still are in the next filter. -/
theorem requests_are_independent (text : String) (earlier : List Request) :
    let r := (Reader.ofText text).after earlier
    let fresh := Reader.ofText (String.ofList r.rest)
    ∃ taken, text.toList = taken ++ r.rest ∧
      (∀ q, (r.ask q).1 = (fresh.ask q).1.mapError (Error.below (taken.count '\n')) ∧
        (r.ask q).2.rest = (fresh.ask q).2.rest) ∧
      (∀ b cs behind, readValue r.setting cs = ok (some (.bool b)) behind ↔
        cs = (if b then 'T' else 'F') :: behind ∧ Stops isNameChar behind) ∧
      (∀ b, r.scalar.1 = .ok (some (.bool b)) →
        (skipBlanks r.rest).head? = some (if b then 'T' else 'F')) ∧
      ∀ relation path b, r.rest = (Filter.compare relation path (.bool b)).text →
        r.filter.1 = .ok (.compare relation path (.bool b)) := by
  intro r fresh
  obtain ⟨taken, htaken⟩ := (Reader.hasTaken_ofText text).after earlier
  refine ⟨taken, htaken.split, fun q => htaken.ask_eq q, fun b cs behind => ?_, fun b => ?_, ?_⟩
  · exact Reader.readValue_bool_of_data htaken.setting
  · exact Reader.head?_of_scalar_bool htaken.setting
  · intro relation path b hrest
    exact Reader.filter_of_text rfl hrest

/-- A filter fails at its second word, and the rest of it is no truth value. -/
theorem requests_are_independent_after_failure :
    ∃ message, ((Reader.ofText " true").ask .scalar).1 = .error (.parse 1 message) ∧
      (((Reader.ofText "\na b true").after [.filter]).ask .scalar).1 =
        .error (.parse 2 message) := by
  obtain ⟨taken, htaken, hask, -⟩ := requests_are_independent "\na b true" [.filter]
  have hrest : ((Reader.ofText "\na b true").after [.filter]).rest = " true".toList := by
    with_unfolding_all rfl
  have hfresh : ((Reader.ofText " true").ask .scalar).1 =
      .error (.parse 1 "Unexpected identifier \"true\"") := by with_unfolding_all rfl
  have hlines : taken.count '\n' = 1 := by
    have hcount := congrArg (List.count '\n') htaken
    rw [hrest, List.count_append] at hcount
    exact hcount.symm
  refine ⟨_, hfresh, ?_⟩
  rw [(hask .scalar).1, hrest, String.ofList_toList, hfresh, hlines]
  rfl

end TagGrid
