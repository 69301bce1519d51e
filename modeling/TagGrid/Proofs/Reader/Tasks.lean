import TagGrid.Proofs.Reader.Sessions

/-! # Tasks of a reader

What a reader does is cut into tasks: a request, a value, a level of a filter, or a loop with
what it has gathered so far. A plan of reading something says which tasks are done first, at
which places of the text, and what becomes of their results. What calls nothing that could call
it again, such as a name or a literal, is read in one go.
-/

namespace TagGrid

open Zinc Zinc.Outcome

/-! ## Loops and tasks -/

/-- The loops of a reader. -/
inductive Loop where
  /-- Over the items of a list. -/
  | items (setting : Setting)
  | tags (setting : Setting)
  | columns (setting : Setting)
  | rows (setting : Setting)
  | grids (setting : Setting)
  /-- Over the characters of a literal behind its opening quote. -/
  | literal (q : Quotation)
  /-- Over the characters of a literal that starts with a digit, behind the first one. -/
  | token
  /-- Over the operands of a conjunction behind the first one. -/
  | operands
  /-- Over the conjunctions of a disjunction behind the first one. -/
  | conjunctions

/-- What a loop has gathered so far, and its result in the end. -/
abbrev Loop.Gathered : Loop → Type
  | items _ => List Value
  | tags _ => Dict
  | columns _ => GridDraft
  | rows _ => GridDraft
  | grids _ => List Grid
  | literal _ => List Char
  | token => DigitToken
  | operands => Filter
  | conjunctions => Filter

/-- What is read as a whole. -/
inductive Task where
  | request (q : Request) (setting : Setting)
  | value (setting : Setting)
  | disjunction
  | conjunction
  | operand
  /-- All turns of a loop from now on. -/
  | loop (l : Loop) (gathered : l.Gathered)

abbrev Task.Result : Task → Type
  | request q _ => q.Result
  | value _ => Option Value
  | disjunction => Filter
  | conjunction => Filter
  | operand => Filter
  | loop l _ => l.Gathered

/-- What the turns of a loop bring from now on. -/
def Loop.read : (l : Loop) → l.Gathered → List Char → Outcome l.Gathered
  | items setting => fun before cs => (readItems setting cs).map (before ++ ·)
  | tags setting => readTags setting
  | columns setting => readColumns setting
  | rows setting => readRows setting
  | grids setting => fun before cs => (readGrids setting cs).map (before ++ ·)
  | literal q => readLiteralBody q
  | token => fun t cs => ok (t.scan cs).1 (t.scan cs).2
  | operands => Filter.readAndRest .filter
  | conjunctions => Filter.readOrRest .filter

/-- What a task brings. -/
def Task.read : (t : Task) → List Char → Outcome t.Result
  | request q setting => q.read setting
  | value setting => readValue setting
  | disjunction => Filter.readOr .filter
  | conjunction => Filter.readAnd .filter
  | operand => Filter.readOperand .filter
  | loop l gathered => l.read gathered

/-! ## Plans -/

/-- How something is read: in one go, or in steps of which the first is a task. -/
inductive Plan (α : Type) where
  | done (outcome : Outcome α)
  | step (task : Task) (place : List Char) (next : task.Result → List Char → Plan α)

/-- What a turn of a loop decides on, with what is gathered then. -/
inductive Turn (σ : Type) where
  | again (gathered : σ)
  | leave (gathered : σ)

namespace Plan

variable {α β : Type}

def of (task : Task) (place : List Char) : Plan task.Result :=
  step task place fun result rest => done (ok result rest)

def bind (p : Plan α) (next : α → List Char → Plan β) : Plan β :=
  match p with
  | done (ok value rest) => next value rest
  | done (fail fault place rest) => done (fail fault place rest)
  | step task place next' => step task place fun result rest => (next' result rest).bind next

def map (f : α → β) (p : Plan α) : Plan β := p.bind fun value rest => done (ok (f value) rest)

def again (gathered : α) (rest : List Char) : Plan (Turn α) := done (ok (.again gathered) rest)

def leave (gathered : α) (rest : List Char) : Plan (Turn α) := done (ok (.leave gathered) rest)

end Plan

/-! ## The size of tasks -/

/-- Where it stands, a task asks for tasks of lower rank only. -/
def Task.rank : Task → Nat
  | value _ | operand | request .grid _ => 0
  | loop _ _ | conjunction => 1
  | disjunction => 2
  | request _ _ => 3

/-- A task is smaller than another one if the text is shorter there, or if it stands at the same
place and its rank is lower. -/
def Task.size (t : Task) (place : List Char) : Nat := 4 * place.length + t.rank

theorem Task.size_lt (t : Task) {place cs : List Char} (h : place.length < cs.length) (k : Nat) :
    t.size place < 4 * cs.length + k := by
  have hrank : t.rank ≤ 3 := by
    unfold rank
    split <;> decide
  unfold size
  omega

theorem Task.size_lt_of_le {t : Task} {place cs : List Char} {k : Nat}
    (h : place.length ≤ cs.length) (hrank : t.rank < k) : t.size place < 4 * cs.length + k := by
  unfold size
  omega

namespace Plan

variable {α β : Type} {cs cs' : List Char} {k k' : Nat} {p : Plan α} {o : Outcome α}

/-- A plan for the text `cs` brings an outcome if it makes that of what is read in its tasks, all
of which are smaller than a task of rank `k` at that text. -/
inductive Brings (cs : List Char) (k : Nat) : Plan α → Outcome α → Prop where
  | done (o : Outcome α) : Brings cs k (done o) o
  | refused {task : Task} {start : List Char} {next : task.Result → List Char → Plan α}
    {fault : Fault} {place rest : List Char} (hsize : task.size start < 4 * cs.length + k)
    (hread : task.read start = fail fault place rest) :
    Brings cs k (step task start next) (fail fault place rest)
  | answered {task : Task} {start : List Char} {next : task.Result → List Char → Plan α}
    {result : task.Result} {rest : List Char} {o : Outcome α}
    (hsize : task.size start < 4 * cs.length + k) (hread : task.read start = ok result rest)
    (hnext : Brings cs k (next result rest) o) : Brings cs k (step task start next) o

namespace Brings

theorem of {task : Task} {start : List Char} (hsize : task.size start < 4 * cs.length + k) :
    Brings cs k (Plan.of task start) (task.read start) := by
  cases hread : task.read start with
  | ok result rest => exact answered hsize hread (done _)
  | fail fault place rest => exact refused hsize hread

theorem bind {next : α → List Char → Plan β} {next' : α → List Char → Outcome β}
    (h : Brings cs k p o)
    (hnext : ∀ value rest, o = ok value rest → Brings cs k (next value rest) (next' value rest)) :
    Brings cs k (p.bind next) (o.bind next') := by
  induction h with
  | done o =>
    cases o with
    | ok value rest => exact hnext value rest rfl
    | fail fault place rest => exact done _
  | refused hsize hread => exact refused hsize hread
  | answered hsize hread _ ih => exact answered hsize hread (ih hnext)

theorem map (h : Brings cs k p o) (f : α → β) : Brings cs k (p.map f) (o.map f) :=
  h.bind fun _ _ _ => done _

theorem mono (h : Brings cs k p o) (hcs : cs.length ≤ cs'.length) (hk : k ≤ k') :
    Brings cs' k' p o := by
  have hle : 4 * cs.length + k ≤ 4 * cs'.length + k' := by omega
  induction h with
  | done o => exact done o
  | refused hsize hread => exact refused (Nat.lt_of_lt_of_le hsize hle) hread
  | answered hsize hread _ ih => exact answered (Nat.lt_of_lt_of_le hsize hle) hread ih

end Brings

end Plan

/-! ## Turns -/

/-- A turn takes at least one character if it decides on another turn. Whatever it decides on,
and if it fails, an end of the text is left. -/
def Turn.Advances {σ : Type} (cs : List Char) : Outcome (Turn σ) → Prop
  | ok (again _) rest => rest <:+ cs ∧ rest.length < cs.length
  | ok (leave _) rest => rest <:+ cs
  | fail _ _ rest => rest <:+ cs

/-- What a loop brings after a turn, if `read` is what it brings from any turn on. -/
def Turn.goOn {σ : Type} (read : σ → List Char → Outcome σ) : Turn σ → List Char → Outcome σ
  | again gathered => read gathered
  | leave gathered => ok gathered

namespace Plan

variable {α σ : Type} {read : σ → List Char → Outcome σ} {gathered : σ} {cs rest : List Char}

/-- With the turn `p` at the text `cs`, a loop brings `o`, if `read` is what it brings from any
turn on. -/
def Turns (read : σ → List Char → Outcome σ) (cs : List Char) (p : Plan (Turn σ))
    (o : Outcome σ) : Prop :=
  ∃ turn, p.Brings cs 1 turn ∧ Turn.Advances cs turn ∧ turn.bind (Turn.goOn read) = o

namespace Turns

theorem again (hrest : rest <:+ cs) (hlength : rest.length < cs.length) :
    Turns read cs (.again gathered rest) (read gathered rest) :=
  ⟨_, .done _, ⟨hrest, hlength⟩, rfl⟩

theorem leave (hrest : rest <:+ cs) : Turns read cs (.leave gathered rest) (ok gathered rest) :=
  ⟨_, .done _, hrest, rfl⟩

theorem fail {fault : Fault} {place : List Char} (hrest : rest <:+ cs) :
    Turns read cs (.done (.fail fault place rest)) (.fail fault place rest) :=
  ⟨_, .done _, hrest, rfl⟩

/-- The turn goes on behind what `p` brings. -/
theorem bind {p : Plan α} {o : Outcome α} {next : α → List Char → Plan (Turn σ)}
    {next' : α → List Char → Outcome σ} (h : p.Brings cs 1 o) (hrest : o.rest <:+ cs)
    (hnext : ∀ value rest, o = ok value rest → rest <:+ cs →
      Turns read cs (next value rest) (next' value rest)) :
    Turns read cs (p.bind next) (o.bind next') := by
  cases o with
  | ok value rest =>
    obtain ⟨turn, hbrings, hadvances, hgoOn⟩ := hnext value rest rfl hrest
    have hturn : Brings cs 1 (p.bind next) ((ok value rest).bind fun _ _ => turn) := by
      refine h.bind ?_
      rintro _ _ ⟨⟩
      exact hbrings
    exact ⟨turn, hturn, hadvances, hgoOn⟩
  | fail fault place rest =>
    have hturn : Brings cs 1 (p.bind next)
        ((.fail fault place rest : Outcome α).bind fun _ _ => .fail fault place rest) :=
      h.bind nofun
    exact ⟨_, hturn, hrest, rfl⟩

end Turns

end Plan

end TagGrid
