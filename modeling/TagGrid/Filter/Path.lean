import TagGrid.Error

/-! # Paths

A path names a tag, or a tag of a record that a ref leads to: `siteRef->dis` is the
display text of the site that a record refers to.
-/

namespace TagGrid

/-- A segment of a path starts with a letter and goes on with letters, digits and
underscores; the words of filters are no segments. -/
def isSegment : List Char → Bool
  | [] => false
  | c :: cs =>
    c.isAlpha && cs.all Text.isNameChar &&
      !(["and".toList, "or".toList, "not".toList].contains (c :: cs))

/-- The tags to follow from a record, of which all but the last hold refs. -/
structure Path where
  segments : List String
  nonempty : segments ≠ []
  valid : ∀ s ∈ segments, isSegment s.toList = true
  deriving Repr, DecidableEq

/-- What is wrong with the text of a path. -/
inductive PathFault where
  /-- Nothing between two arrows, or before or after all of them. -/
  | emptySegment (index : Nat) (text : String)
  | segment (name : String)
  deriving Repr, DecidableEq

def PathFault.message : PathFault → String
  | emptySegment index text =>
    "Empty path segment " ++ toString index ++ " in " ++ Text.quote text
  | segment name => "Invalid path segment " ++ Text.quote name

namespace Path

def ofSegments? (segments : List String) : Except Violation Path :=
  if hn : segments = [] then .error .emptyPath
  else
    match hf : segments.find? fun s => !isSegment s.toList with
    | some bad => .error (.pathSegment bad)
    | none => .ok ⟨segments, hn, fun s hs => by
        simpa using List.find?_eq_none.1 hf s hs⟩

theorem segments_of_ofSegments? {segments : List String} {p : Path}
    (h : ofSegments? segments = .ok p) : p.segments = segments := by
  unfold ofSegments? at h
  split at h
  · cases h
  · split at h
    · cases h
    · cases h
      rfl

def splitArrows : List Char → List (List Char)
  | [] => [[]]
  | '-' :: '>' :: cs => [] :: splitArrows cs
  | c :: cs =>
    match splitArrows cs with
    | [] => [[c]]
    | part :: parts => (c :: part) :: parts

/-- The first fault among the parts of a text, counted from `index`. -/
def fault? (text : String) (index : Nat) : List (List Char) → Option PathFault
  | [] => none
  | part :: parts =>
    if part = [] then some (.emptySegment index text)
    else if !isSegment part then some (.segment (String.ofList part))
    else fault? text (index + 1) parts

def parse? (text : String) : Except Error Path :=
  let parts := splitArrows text.toList
  match fault? text 0 parts with
  | some fault => .error (.parse 1 fault.message)
  | none => (ofSegments? (parts.map String.ofList)).mapError .ofViolation

def size (p : Path) : Nat := p.segments.length

/-- The segment at a place counted from zero. -/
def get? (p : Path) (index : Nat) : Option String := p.segments[index]?

/-- The text of a path: its segments with arrows between them. -/
def text (p : Path) : List Char := ((p.segments.map String.toList).intersperse ['-', '>']).flatten

end Path

end TagGrid
