import TagGrid.Proofs.Reader.FilterPlans
import TagGrid.Proofs.Reader.GridPlans

/-! # Every parse ends

The plans of all tasks, put together, say how a reader works without ever looking at how much
of the text is left. Each task asks for smaller ones only, so a plan always ends; and what it
ends with is what the reader brings.
-/

namespace TagGrid

open Zinc Zinc.Outcome

/-! ## The plans of loops, requests and tasks -/

def Loop.turn : (l : Loop) → l.Gathered → List Char → Plan (Turn l.Gathered)
  | items setting => Plan.itemsTurn setting
  | tags setting => Plan.tagsTurn setting
  | columns setting => Plan.columnsTurn setting
  | rows setting => Plan.rowsTurn setting
  | grids setting => Plan.gridsTurn setting
  | literal q => Plan.literalTurn q
  | token => Plan.tokenTurn
  | operands => Plan.chainTurn ['a', 'n', 'd'] (Plan.of .operand) .and
  | conjunctions => Plan.chainTurn ['o', 'r'] (Plan.of .conjunction) .or

/-- A loop takes a turn, and goes on for as long as the turns decide so. -/
def Loop.plan (l : Loop) (gathered : l.Gathered) (cs : List Char) : Plan l.Gathered :=
  (l.turn gathered cs).bind fun turn rest =>
    match turn with
    | .again gathered => Plan.of (.loop l gathered) rest
    | .leave gathered => Plan.done (ok gathered rest)

def Request.plan : (q : Request) → Setting → List Char → Plan q.Result
  | scalar => fun setting cs =>
    (Plan.of (.value setting) (skipBlanks cs)).bind fun value rest =>
      Plan.done ((readEnd rest).map fun _ => value)
  | dict => fun setting cs =>
    match skipBlanks cs with
    | '\x7b' :: rest =>
      (Plan.of (.loop (.tags setting) .empty) rest).bind fun tags rest =>
        (Plan.done (readChar '\x7d' (skipBlanks rest))).bind fun _ rest =>
          Plan.done ((readEnd rest).map fun _ => tags)
    | start =>
      (Plan.of (.loop (.tags setting) .empty) start).bind fun tags rest =>
        Plan.done ((readEnd rest).map fun _ => tags)
  | grid => Plan.grid
  | grids => fun setting => Plan.of (.loop (.grids setting) [])
  | filter => fun _ cs =>
    match skipBlanks cs with
    | [] => Plan.done (failHere .emptyFilter [])
    | start =>
      (Plan.of .disjunction start).bind fun filter rest =>
        Plan.done ((Filter.readFilterEnd rest).map fun _ => filter)

def Task.plan : (t : Task) → List Char → Plan t.Result
  | request q setting => q.plan setting
  | value setting => Plan.value setting
  | disjunction => fun cs =>
    (Plan.of .conjunction cs).bind fun first => Plan.of (.loop .conjunctions first)
  | conjunction => fun cs => (Plan.of .operand cs).bind fun first => Plan.of (.loop .operands first)
  | operand => Plan.operand
  | loop l gathered => l.plan gathered

/-- What a plan ends with, once each of the tasks in it has ended. -/
inductive Plan.Ends : {α : Type} → Plan α → Outcome α → Prop where
  | done {α : Type} (o : Outcome α) : Ends (done o) o
  | refused {α : Type} {task : Task} {start : List Char}
    {next : task.Result → List Char → Plan α} {fault : Fault} {place rest : List Char}
    (htask : Ends (task.plan start) (fail fault place rest)) :
    Ends (step task start next) (fail fault place rest)
  | answered {α : Type} {task : Task} {start : List Char}
    {next : task.Result → List Char → Plan α} {result : task.Result} {rest : List Char}
    {o : Outcome α} (htask : Ends (task.plan start) (ok result rest))
    (hnext : Ends (next result rest) o) : Ends (step task start next) o

/-! ## What the plans bring -/

variable {cs : List Char}

theorem Loop.turns (l : Loop) (gathered : l.Gathered) (cs : List Char) :
    Plan.Turns l.read cs (l.turn gathered cs) (l.read gathered cs) := by
  cases l with
  | items setting => exact Plan.turns_items setting gathered cs
  | tags setting => exact Plan.turns_tags setting gathered cs
  | columns setting => exact Plan.turns_columns setting gathered cs
  | rows setting => exact Plan.turns_rows setting gathered cs
  | grids setting => exact Plan.turns_grids setting gathered cs
  | literal q => exact Plan.turns_literal q gathered cs
  | token => exact Plan.turns_token gathered cs
  | operands =>
    refine Plan.turns_chain (Filter.level_and .filter) (fun rest hrest => ?_) gathered
    exact .of (Task.size_lt .operand hrest 1)
  | conjunctions =>
    refine Plan.turns_chain (Filter.level_or .filter) (fun rest hrest => ?_) gathered
    exact .of (Task.size_lt .conjunction hrest 1)

/-- Where a loop goes on, less of the text is left. -/
theorem Loop.brings_plan (l : Loop) (gathered : l.Gathered) (cs : List Char) :
    Plan.Brings cs 1 (l.plan gathered cs) (l.read gathered cs) := by
  obtain ⟨turn, hturn, hadvances, hgoOn⟩ := l.turns gathered cs
  rw [← hgoOn]
  refine hturn.bind fun decision rest hdecision => ?_
  rw [hdecision] at hadvances
  cases decision with
  | again gathered' => exact .of (Task.size_lt (.loop l gathered') hadvances.2 1)
  | leave gathered' => exact .done _

theorem Request.brings_plan (q : Request) (setting : Setting) (cs : List Char) :
    Plan.Brings cs (Task.request q setting).rank (q.plan setting cs) (q.read setting cs) := by
  have hskip := length_skipBlanks_le cs
  have hask : ∀ (task : Task) (start : List Char), task.rank < 3 → start.length ≤ cs.length →
      Plan.Brings cs 3 (Plan.of task start) (task.read start) :=
    fun task start hrank hstart => .of (Task.size_lt_of_le hstart hrank)
  cases q with
  | scalar =>
    have hvalue := hask (.value setting) (skipBlanks cs) (Nat.zero_lt_succ _) hskip
    exact hvalue.bind fun _ _ _ => .done _
  | dict =>
    have htags := hask (.loop (.tags setting) .empty)
    simp only [Request.read, Request.plan]
    fun_cases readDict setting cs with
    | case1 rest hbrace =>
      simp only [hbrace]
      have hrest := ((List.suffix_cons _ rest).trans (suffix_of_skipBlanks hbrace)).length_le
      refine (htags rest (Nat.one_lt_succ_succ _) hrest).bind fun tags rest' _ => ?_
      exact (Plan.Brings.done _).bind fun _ _ _ => .done _
    | case2 =>
      simp only
      exact (htags _ (Nat.one_lt_succ_succ _) hskip).bind fun _ _ _ => .done _
  | grid => exact Plan.brings_grid setting cs
  | grids =>
    have hgrids := hask (.loop (.grids setting) []) cs (Nat.one_lt_succ_succ _) (Nat.le_refl _)
    simp only [Task.read, Loop.read, map_nil_append] at hgrids
    exact hgrids
  | filter =>
    have hor := hask .disjunction (skipBlanks cs) (by decide) hskip
    simp only [Request.read, Request.plan]
    fun_cases Filter.readFilter .filter cs with
    | case1 hnil =>
      simp only [hnil]
      exact .done _
    | case2 =>
      simp only
      exact hor.bind fun _ _ _ => .done _

theorem Task.brings_plan (t : Task) (cs : List Char) :
    Plan.Brings cs t.rank (t.plan cs) (t.read cs) := by
  cases t with
  | request q setting => exact q.brings_plan setting cs
  | value setting => exact Plan.brings_value setting cs
  | disjunction =>
    simp only [Task.read, (Filter.level_or .filter).all_eq]
    have hsize := Task.size_lt_of_le (Nat.le_refl cs.length) (by decide : Task.conjunction.rank < 2)
    refine (Plan.Brings.of hsize).bind fun first rest hread => ?_
    have hlength := Filter.advances_readAnd .filter cs first rest hread
    exact .of (Task.size_lt (.loop .conjunctions first) hlength 2)
  | conjunction =>
    simp only [Task.read, (Filter.level_and .filter).all_eq]
    have hsize := Task.size_lt_of_le (Nat.le_refl cs.length) (by decide : Task.operand.rank < 1)
    refine (Plan.Brings.of hsize).bind fun first rest hread => ?_
    have hlength := Filter.advances_readOperand .filter cs first rest hread
    exact .of (Task.size_lt (.loop .operands first) hlength 1)
  | operand => exact Plan.brings_operand cs
  | loop l gathered => exact l.brings_plan gathered cs

/-! ## Ends -/

namespace Plan

variable {α : Type} {p : Plan α} {o o' : Outcome α} {k : Nat}

theorem Brings.ends_of (h : Brings cs k p o)
    (htask : ∀ (task : Task) (start : List Char), task.size start < 4 * cs.length + k →
      Ends (task.plan start) (task.read start)) : Ends p o := by
  induction h with
  | done o => exact .done o
  | refused hsize hread => exact .refused (hread ▸ htask _ _ hsize)
  | answered hsize hread _ ih => exact .answered (hread ▸ htask _ _ hsize) ih

/-- A plan ends with one outcome only. -/
theorem Ends.unique (h : Ends p o) (h' : Ends p o') : o = o' := by
  induction h with
  | done o =>
    cases h'
    rfl
  | refused htask ih =>
    cases h' with
    | refused htask' =>
      cases ih htask'
      rfl
    | answered htask' => cases ih htask'
  | answered htask hnext ih ihnext =>
    cases h' with
    | refused htask' => cases ih htask'
    | answered htask' hnext' =>
      cases ih htask'
      exact ihnext hnext'

end Plan

theorem Task.ends (t : Task) (cs : List Char) : (t.plan cs).Ends (t.read cs) :=
  -- What the plan asks for is smaller, and ends for that reason.
  (t.brings_plan cs).ends_of fun task start _ => task.ends start
termination_by t.size cs

theorem Plan.Brings.ends_iff {α : Type} {k : Nat} {p : Plan α} {o o' : Outcome α}
    (h : Brings cs k p o) : p.Ends o' ↔ o' = o := by
  have hends : p.Ends o := h.ends_of fun task start _ => task.ends start
  constructor
  · intro h'
    exact h'.unique hends
  · rintro rfl
    exact hends

/-- Every task ends at every place of every text, and so does everything that a reader is asked
for, which leaves an end of the text. A value, a name, a path and a grid take at least one
character, and so does a turn of any loop behind which there is another turn. -/
theorem every_parse_ends_and_advances :
    (∀ (t : Task) (cs : List Char) (outcome : Outcome t.Result),
      (t.plan cs).Ends outcome ↔ outcome = t.read cs) ∧
    (∀ (r : Reader) (q : Request),
      r.ask q = r.run (fun setting => (Task.request q setting).read) ∧
        (r.ask q).2.rest <:+ r.rest) ∧
    (∀ (setting : Setting) (cs : List Char),
      Advances cs (readValue setting cs) ∧ Advances cs (readName cs) ∧
        Advances cs (Filter.readPath cs) ∧ Advances cs (readGrid setting cs)) ∧
    ∀ (l : Loop) (gathered : l.Gathered) (cs : List Char), ∃ turn,
      (∀ outcome, (l.turn gathered cs).Ends outcome ↔ outcome = turn) ∧
        Turn.Advances cs turn ∧ turn.bind (Turn.goOn l.read) = l.read gathered cs := by
  refine ⟨fun t cs outcome => (t.brings_plan cs).ends_iff, fun r q => ⟨r.ask_eq_run q, ?_⟩,
    fun setting cs => ?_, fun l gathered cs => ?_⟩
  · rw [r.ask_eq_run, r.run_rest]
    exact (q.within_read r.setting r.rest).rest_suffix
  · exact ⟨advances_readValue setting cs, advances_readName cs, Filter.advances_readPath cs,
      advances_readGrid setting cs⟩
  · obtain ⟨turn, hbrings, hadvances, hgoOn⟩ := l.turns gathered cs
    exact ⟨turn, fun _ => hbrings.ends_iff, hadvances, hgoOn⟩

end TagGrid
