import TagGrid.Error
import TagGrid.Value.Basic

/-! # Tag dictionaries

A dictionary gives values to tag names. Its entries are kept in the order of the names,
each name once, so two dictionaries with the same tags are the same whatever the order
in which the tags were added.
-/

namespace TagGrid

/-- A tag name starts with a small letter and goes on with letters, digits and
underscores. -/
def isTagName : List Char → Bool
  | [] => false
  | c :: cs => c.isLower && cs.all Text.isNameChar

/-- The name of a tag or a column. -/
structure TagName where
  text : String
  valid : isTagName text.toList = true
  deriving Repr, DecidableEq

def TagName.ofText? (text : String) : Except Violation TagName :=
  if h : isTagName text.toList = true then .ok ⟨text, h⟩ else .error (.tagName text)

/-- A dictionary of tags in the order of their names. -/
structure Dict where
  entries : List (TagName × Value)
  sorted : entries.Pairwise fun a b => a.1.text < b.1.text
  deriving Repr

namespace Dict

def empty : Dict := ⟨[], .nil⟩

/-- Puts an entry into its place; an entry of the same name gives way. -/
def insertEntry (name : TagName) (value : Value) :
    List (TagName × Value) → List (TagName × Value)
  | [] => [(name, value)]
  | (n, v) :: rest =>
    if name.text < n.text then (name, value) :: (n, v) :: rest
    else if n.text < name.text then (n, v) :: insertEntry name value rest
    else (name, value) :: rest

theorem mem_insertEntry {name : TagName} {value : Value} {e : TagName × Value}
    {entries : List (TagName × Value)} (h : e ∈ insertEntry name value entries) :
    e = (name, value) ∨ e ∈ entries := by
  fun_induction insertEntry name value entries with
  | case1 => simpa using h
  | case2 => simpa using h
  | case3 n v rest _ _ ih =>
    rcases List.mem_cons.1 h with rfl | h
    · exact .inr List.mem_cons_self
    · exact (ih h).imp_right (List.mem_cons_of_mem _)
  | case4 => simp_all only [List.mem_cons]; rcases h with h | h <;> simp [h]

theorem sorted_insertEntry {name : TagName} {value : Value}
    {entries : List (TagName × Value)}
    (h : entries.Pairwise fun a b => a.1.text < b.1.text) :
    (insertEntry name value entries).Pairwise fun a b => a.1.text < b.1.text := by
  fun_induction insertEntry name value entries with
  | case1 => exact List.pairwise_singleton _ _
  | case2 n v rest hlt =>
    refine List.pairwise_cons.2 ⟨fun e he => ?_, h⟩
    rcases List.mem_cons.1 he with rfl | he
    · exact hlt
    · exact String.lt_trans hlt ((List.pairwise_cons.1 h).1 e he)
  | case3 n v rest _ hgt ih =>
    obtain ⟨hhead, htail⟩ := List.pairwise_cons.1 h
    refine List.pairwise_cons.2 ⟨fun e he => ?_, ih htail⟩
    rcases mem_insertEntry he with rfl | he
    · exact hgt
    · exact hhead e he
  | case4 n v rest hlt hgt =>
    obtain ⟨hhead, htail⟩ := List.pairwise_cons.1 h
    have heq : name.text = n.text := String.le_antisymm (String.not_lt.1 hgt) (String.not_lt.1 hlt)
    exact List.pairwise_cons.2 ⟨fun e he => by simpa [heq] using hhead e he, htail⟩

/-- Gives a tag a value, in place of the one it may have had. -/
def set (d : Dict) (name : TagName) (value : Value) : Dict :=
  ⟨insertEntry name value d.entries, sorted_insertEntry d.sorted⟩

/-- Gives a tag a value if the name is a tag name. -/
def add? (d : Dict) (name : String) (value : Value) : Except Violation Dict := do
  return d.set (← TagName.ofText? name) value

/-- Adds a tag when there is a value; an absent value adds nothing, whatever the name. -/
def addOption? (d : Dict) (name : String) : Option Value → Except Violation Dict
  | some value => d.add? name value
  | none => .ok d

/-- Adds every tag of another dictionary, whose values win. -/
def addAll (d other : Dict) : Dict :=
  other.entries.foldl (fun acc e => acc.set e.1 e.2) d

def get? (d : Dict) (name : String) : Option Value :=
  (d.entries.find? fun e => e.1.text == name).map Prod.snd

/-- The value of a tag that must be there. -/
def require (d : Dict) (name : String) : Except Error Value :=
  match d.get? name with
  | some value => .ok value
  | none => .error (.unknownName name)

def has (d : Dict) (name : String) : Bool := (d.get? name).isSome

def size (d : Dict) : Nat := d.entries.length

def isEmpty (d : Dict) : Bool := d.entries.isEmpty

/-- The names of the tags, in order. -/
def names (d : Dict) : List TagName := d.entries.map Prod.fst

theorem nodup_names (d : Dict) : d.names.Nodup := by
  unfold names
  refine List.pairwise_map.2 (d.sorted.imp fun {a b} hlt heq => ?_)
  exact String.lt_irrefl _ (heq ▸ hlt)

/-- The ref of the `id` tag. -/
def id? (d : Dict) : Option Ref := (d.get? "id").bind Value.ref?

/-- The text to display: the `dis` tag if it is a string, else the display text of the
`id` tag, else the id, else nothing. -/
def dis (d : Dict) : String :=
  match (d.get? "dis").bind Value.str? with
  | some text => text
  | none =>
    match d.id? with
    | some ref => ref.dis.getD ref.id
    | none => ""

/-- Whether two dictionaries have the same tags with equal values. -/
def same (a b : Dict) : Bool :=
  a.size == b.size && a.entries.all fun e =>
    match b.get? e.1.text with
    | some value => e.2.same value
    | none => false

end Dict

end TagGrid
