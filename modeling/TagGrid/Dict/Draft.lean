import TagGrid.Dict.Basic

/-! # Building a dictionary

A draft takes tags one by one and keeps them in the order in which their names first came.
A tag that comes again takes its new value in its old place. The finished dictionary has
the tags in the order of their names.
-/

namespace TagGrid

variable {α : Type}

/-- Puts an entry in the place of the one of its name, else at the end. -/
def putEntry (name : TagName) (value : α) : List (TagName × α) → List (TagName × α)
  | [] => [(name, value)]
  | (n, v) :: rest =>
    if n = name then (name, value) :: rest else (n, v) :: putEntry name value rest

theorem mem_names_putEntry {name n : TagName} {value : α} {entries : List (TagName × α)}
    (h : n ∈ (putEntry name value entries).map Prod.fst) :
    n = name ∨ n ∈ entries.map Prod.fst := by
  fun_induction putEntry name value entries with
  | case1 => simpa using h
  | case2 v rest => simpa using h
  | case3 m v rest hne ih =>
    rw [List.map_cons, List.mem_cons] at h ⊢
    rcases h with rfl | h
    · exact .inr (.inl rfl)
    · exact (ih h).imp_right .inr

theorem nodup_putEntry {name : TagName} {value : α} {entries : List (TagName × α)}
    (h : (entries.map Prod.fst).Nodup) : ((putEntry name value entries).map Prod.fst).Nodup := by
  fun_induction putEntry name value entries with
  | case1 => exact List.pairwise_singleton _ _
  | case2 v rest => exact h
  | case3 m v rest hne ih =>
    obtain ⟨hhead, htail⟩ := List.nodup_cons.1 h
    refine List.nodup_cons.2 ⟨fun hmem => ?_, ih htail⟩
    rcases mem_names_putEntry hmem with heq | hmem
    · exact hne heq
    · exact hhead hmem

/-- The answer to a change that succeeds with no more to say, or why it is refused, and what
there is afterwards: a change that is refused is none. -/
def settle (before : α) : Except Violation α → Except Violation (Option Value) × α
  | .ok after => (.ok none, after)
  | .error v => (.error v, before)

/-- A dictionary under construction. No two of its entries have the same name. -/
structure DictDraft where
  entries : List (TagName × Value)
  distinct : (entries.map Prod.fst).Nodup
  deriving Repr

namespace DictDraft

/-- The draft with nothing in it. -/
def empty : DictDraft := ⟨[], by simp⟩

/-- The draft that goes on from a dictionary. -/
def ofDict (d : Dict) : DictDraft := ⟨d.entries, d.nodup_names⟩

/-- Gives a tag a value, in place of the one it may have had. -/
def set (b : DictDraft) (name : TagName) (value : Value) : DictDraft :=
  ⟨putEntry name value b.entries, nodup_putEntry b.distinct⟩

/-- Gives a tag a value if the name is a tag name. -/
def add? (b : DictDraft) (name : String) (value : Value) : Except Violation DictDraft := do
  return b.set (← TagName.ofText? name) value

/-- Adds a tag when there is a value; an absent value adds nothing, whatever the name. -/
def addOption? (b : DictDraft) (name : String) : Option Value → Except Violation DictDraft
  | some value => b.add? name value
  | none => .ok b

/-- A number with its unit, if it is given one. -/
def number? (value : Double) : Option String → Except Violation Number
  | some unit => Number.withUnit? value unit
  | none => .ok (.plain value)

/-- Adds a number, checking its unit before the name. -/
def addNumber? (b : DictDraft) (name : String) (value : Double) (unit : Option String) :
    Except Violation DictDraft := do
  b.add? name (.number (← number? value unit))

/-- Adds every tag of a dictionary, whose values win. -/
def addAll (b : DictDraft) (d : Dict) : DictDraft :=
  d.entries.foldl (fun acc e => acc.set e.1 e.2) b

/-- Takes a tag away and leaves the others in their order. -/
def erase (b : DictDraft) (name : String) : DictDraft where
  entries := b.entries.filter fun e => e.1.text != name
  distinct := b.distinct.sublist (List.filter_sublist.map _)

def get? (b : DictDraft) (name : String) : Option Value :=
  (b.entries.find? fun e => e.1.text == name).map Prod.snd

def has (b : DictDraft) (name : String) : Bool := b.entries.any fun e => e.1.text == name

def size (b : DictDraft) : Nat := b.entries.length

def isEmpty (b : DictDraft) : Bool := b.entries.isEmpty

/-- Whether the name of an entry comes no later than that of another one. -/
def nameLE (e f : TagName × Value) : Bool := e.1.text ≤ f.1.text

theorem pairwise_sort (entries : List (TagName × Value)) :
    (entries.mergeSort nameLE).Pairwise fun e f => e.1.text ≤ f.1.text := by
  have hsorted : (entries.mergeSort nameLE).Pairwise fun e f => nameLE e f = true := by
    apply List.pairwise_mergeSort
    · intro e f g hef hfg
      exact decide_eq_true (String.le_trans (of_decide_eq_true hef) (of_decide_eq_true hfg))
    · intro e f
      simpa [nameLE] using String.le_total e.1.text f.1.text
  exact hsorted.imp of_decide_eq_true

/-- The finished dictionary: the entries in the order of their names. -/
def freeze (b : DictDraft) : Dict where
  entries := b.entries.mergeSort nameLE
  sorted := by
    have hnames := ((List.mergeSort_perm b.entries nameLE).map Prod.fst).nodup_iff.2 b.distinct
    refine ((pairwise_sort b.entries).and (List.pairwise_map.1 hnames)).imp ?_
    rintro ⟨⟨m, _⟩, _⟩ ⟨⟨n, _⟩, _⟩ ⟨hle, hne⟩
    refine Decidable.byContradiction fun hnot => hne ?_
    cases String.le_antisymm hle (String.not_lt.1 hnot)
    rfl

/-- A call of a draft that can change it. -/
inductive Call where
  | add (name : String) (value : Value)
  | addMarker (name : String)
  | addNumber (name : String) (value : Double) (unit : Option String)
  | addOption (name : String) (value : Option Value)
  | addAll (tags : Dict)
  | remove (name : String)
  /-- Finishes the dictionary and goes on from it. -/
  | refreeze
  deriving Repr

/-- What a call answers, which is the value that it removed if it did, and the draft after
it. -/
def perform (b : DictDraft) : Call → Except Violation (Option Value) × DictDraft
  | .add name value => settle b (b.add? name value)
  | .addMarker name => settle b (b.add? name .marker)
  | .addNumber name value unit => settle b (b.addNumber? name value unit)
  | .addOption name value => settle b (b.addOption? name value)
  | .addAll tags => (.ok none, b.addAll tags)
  | .remove name => (.ok (b.get? name), b.erase name)
  | .refreeze => (.ok none, ofDict b.freeze)

/-- The draft after calls made one after another. -/
def run (b : DictDraft) (calls : List Call) : DictDraft :=
  calls.foldl (fun b call => (b.perform call).2) b

end DictDraft

end TagGrid
