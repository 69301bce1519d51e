import TagGrid.Filter.Basic
import TagGrid.Zinc.ValueReader

/-! # Reading filters

A filter is a disjunction of conjunctions of operands; an operand is a filter in
parentheses, `not` before a path, a path alone, or a path compared with a value. `and`
and `or` join to the left.
-/

namespace TagGrid.Filter

open Zinc Zinc.Outcome

/-- The text after a keyword, if the text starts with it and no name goes on there. -/
def dropKeyword? (word cs : List Char) : Option (List Char) :=
  if word.isPrefixOf cs ∧ ¬ (cs.drop word.length).head?.any Text.isNameChar then
    some (cs.drop word.length)
  else none

theorem length_dropKeyword?_le {word cs rest : List Char} (h : dropKeyword? word cs = some rest) :
    rest.length ≤ cs.length := by
  unfold dropKeyword? at h
  split at h
  · cases h; simp
  · simp at h

/-- Reads a segment of a path. -/
def readSegment (cs : List Char) : Outcome String := readNameOr .segmentStart cs

/-- Reads the segments of a path with arrows between them. -/
def readSegments (cs : List Char) : Outcome (List String) :=
  match _h : readSegment cs with
  | fail fault place rest => fail fault place rest
  | ok segment ('-' :: '>' :: rest) => (readSegments rest).map (segment :: ·)
  | ok _ ('-' :: rest) => failHere .arrow rest
  | ok segment rest => ok [segment] rest
termination_by cs.length
decreasing_by have := length_readNameOr_lt _h; simp only [List.length_cons] at this; omega

def readPath (cs : List Char) : Outcome Path :=
  (readSegments cs).bind fun segments rest => check rest rest (Path.ofSegments? segments)

/-- The sign of a comparison at the front of a text, and the text after it. -/
def splitRelation? : List Char → Option (Relation × List Char)
  | '=' :: '=' :: cs => some (.eq, cs)
  | '!' :: '=' :: cs => some (.ne, cs)
  | '<' :: '=' :: cs => some (.le, cs)
  | '>' :: '=' :: cs => some (.ge, cs)
  | '<' :: cs => some (.lt, cs)
  | '>' :: cs => some (.gt, cs)
  | _ => none

/-- Reads a path, and the comparison that may follow it. -/
def readComparison (setting : Setting) (cs : List Char) : Outcome Filter :=
  (readPath cs).bind fun path rest =>
    match splitRelation? (skipBlanks rest) with
    | none => ok (.has path) (skipBlanks rest)
    | some (relation, rest) =>
      (readValue setting (skipBlanks rest)).bind fun value rest =>
        match value with
        | some value => ok (.compare relation path value) rest
        | none => failHere .absentOperand rest

mutual

def readOr (setting : Setting) (cs : List Char) : Outcome Filter :=
  match readAnd setting cs with
  | fail fault place rest => fail fault place rest
  | ok left rest => if rest.length < cs.length then readOrRest setting left rest else ok left rest
termination_by 3 * cs.length + 2

/-- Reads the rest of a disjunction after its first operands. -/
def readOrRest (setting : Setting) (left : Filter) (cs : List Char) : Outcome Filter :=
  match _h : dropKeyword? ['o', 'r'] (skipBlanks cs) with
  | none => ok left (skipBlanks cs)
  | some rest =>
    match readAnd setting rest with
    | fail fault place rest => fail fault place rest
    | ok right rest =>
      if rest.length < cs.length then readOrRest setting (.or left right) rest
      else ok (.or left right) rest
termination_by 3 * cs.length + 2
decreasing_by
  · have := length_dropKeyword?_le _h
    have := length_skipBlanks_le cs
    omega
  · omega

def readAnd (setting : Setting) (cs : List Char) : Outcome Filter :=
  match readOperand setting cs with
  | fail fault place rest => fail fault place rest
  | ok left rest => if rest.length < cs.length then readAndRest setting left rest else ok left rest
termination_by 3 * cs.length + 1

/-- Reads the rest of a conjunction after its first operands. -/
def readAndRest (setting : Setting) (left : Filter) (cs : List Char) : Outcome Filter :=
  match _h : dropKeyword? ['a', 'n', 'd'] (skipBlanks cs) with
  | none => ok left (skipBlanks cs)
  | some rest =>
    match readOperand setting rest with
    | fail fault place rest => fail fault place rest
    | ok right rest =>
      if rest.length < cs.length then readAndRest setting (.and left right) rest
      else ok (.and left right) rest
termination_by 3 * cs.length + 1
decreasing_by
  · have := length_dropKeyword?_le _h
    have := length_skipBlanks_le cs
    omega
  · omega

def readOperand (setting : Setting) (cs : List Char) : Outcome Filter :=
  match _h : skipBlanks cs with
  | '(' :: inner =>
    (readOr setting inner).bind fun filter rest =>
      match skipBlanks rest with
      | ')' :: rest => ok filter rest
      | rest => failHere .parenthesisUnclosed rest
  | start =>
    match dropKeyword? ['n', 'o', 't'] start with
    | some rest => (readPath (skipBlanks rest)).map .missing
    | none => readComparison setting start
termination_by 3 * cs.length
decreasing_by
  have := length_skipBlanks_le cs
  simp only [_h, List.length_cons] at this
  omega

end

def readFilterEnd (cs : List Char) : Outcome Unit :=
  match skipBlanks cs with
  | [] => ok () []
  | c :: rest =>
    if c = ')' then failHere .parenthesisUnopened (c :: rest)
    else if c.isAlpha then
      failHere (.joiningWord (String.ofList ((c :: rest).takeWhile Text.isNameChar)))
        ((c :: rest).dropWhile Text.isNameChar)
    else failHere (.afterFilter c) (c :: rest)

def readFilter (setting : Setting) (cs : List Char) : Outcome Filter :=
  match skipBlanks cs with
  | [] => failHere .emptyFilter []
  | start =>
    (readOr setting start).bind fun filter rest => (readFilterEnd rest).map fun _ => filter

end TagGrid.Filter
