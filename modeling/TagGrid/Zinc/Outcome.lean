import TagGrid.Zinc.Fault

/-! # Reading from the front of a text

Everything that is read takes the unread text and leaves less of it. A position is the
text still unread there, so a reading function has no other state: an outcome tells
what was read and what is left, or what was wrong, where, and what is left after it.
Line numbers are counted from the positions afterwards.
-/

namespace TagGrid.Zinc

/-- What came of reading from the front of a text. -/
inductive Outcome (α : Type) where
  /-- Something was read, and `rest` is left. -/
  | ok (value : α) (rest : List Char)
  /-- Something is wrong at `place`, and `rest` is left. -/
  | fail (fault : Fault) (place rest : List Char)
  deriving Repr, DecidableEq

namespace Outcome

variable {α β : Type}

def bind (o : Outcome α) (next : α → List Char → Outcome β) : Outcome β :=
  match o with
  | ok value rest => next value rest
  | fail fault place rest => fail fault place rest

def map (f : α → β) (o : Outcome α) : Outcome β := o.bind fun value rest => ok (f value) rest

def rest : Outcome α → List Char
  | ok _ rest => rest
  | fail _ _ rest => rest

def failHere (fault : Fault) (cs : List Char) : Outcome α := fail fault cs cs

/-- The outcome of a check made when `rest` is left; a refusal is a fault at `place`. -/
def check (place rest : List Char) : Except Violation α → Outcome α
  | .ok value => ok value rest
  | .error v => fail (.violation v) place rest

/-- The outcome of a check whose refusal is passed on as it is, when `rest` is left. -/
def pass (rest : List Char) : Except Violation α → Outcome α
  | .ok value => ok value rest
  | .error v => fail (.refusal v) rest rest

/-- The outcome of examining text that was read already, when `rest` is left. -/
def examine (rest : List Char) : Except Fault α → Outcome α
  | .ok value => ok value rest
  | .error fault => fail fault rest rest

end Outcome

open Outcome

def skipSpaces (cs : List Char) : List Char := cs.dropWhile Text.isSpace

def skipBlanks (cs : List Char) : List Char := cs.dropWhile Text.isBlank

theorem length_skipSpaces_le (cs : List Char) : (skipSpaces cs).length ≤ cs.length :=
  (List.dropWhile_sublist _).length_le

theorem length_skipBlanks_le (cs : List Char) : (skipBlanks cs).length ≤ cs.length :=
  (List.dropWhile_sublist _).length_le

def readChar (wanted : Char) : List Char → Outcome Unit
  | [] => failHere (.expected wanted none) []
  | c :: cs => if c = wanted then ok () cs else failHere (.expected wanted (some c)) (c :: cs)

/-- Reads a name, or tells the fault that something else is in its place. -/
def readNameOr (fault : Option Char → Fault) : List Char → Outcome String
  | [] => failHere (fault none) []
  | c :: cs =>
    if c.isAlpha then
      ok (String.ofList ((c :: cs).takeWhile Text.isNameChar)) ((c :: cs).dropWhile Text.isNameChar)
    else failHere (fault (some c)) (c :: cs)

theorem length_readNameOr_lt {fault : Option Char → Fault} {name : String} {cs rest : List Char}
    (h : readNameOr fault cs = ok name rest) : rest.length < cs.length := by
  unfold readNameOr at h
  split at h
  · cases h
  · rename_i c cs
    split at h
    · rename_i hc
      have hname : Text.isNameChar c = true := by simp [Text.isNameChar, Char.isAlphanum, hc]
      cases h
      rw [List.dropWhile_cons_of_pos hname]
      exact Nat.lt_succ_of_le (List.dropWhile_sublist _).length_le
    · cases h

def readName (cs : List Char) : Outcome String := readNameOr .nameStart cs

/-- Reads a line end, spaces before it included; the end of the text ends its last
line. -/
def readLineEnd (cs : List Char) : Outcome Unit :=
  let afterReturn := match skipSpaces cs with
    | '\r' :: rest => rest
    | rest => rest
  match afterReturn with
  | [] => ok () []
  | '\n' :: rest => ok () rest
  | c :: rest => failHere (.lineEnd c) (c :: rest)

/-- Reads the end of the text, blanks before it included. -/
def readEnd (cs : List Char) : Outcome Unit :=
  match skipBlanks cs with
  | [] => ok () []
  | c :: rest => failHere (.trailing c) (c :: rest)

/-- The number of line ends in a text before one of its positions. -/
def linesBefore (text place : List Char) : Nat := text.count '\n' - place.count '\n'

end TagGrid.Zinc
