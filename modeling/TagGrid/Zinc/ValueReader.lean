import TagGrid.Dict.Basic
import TagGrid.Zinc.LiteralReader
import TagGrid.Zinc.NumberReader

/-! # Reading values and tags

The first character of a value tells its kind. All values but lists are read by
functions of their own; lists hold values again. The words `true` and `false` are
values in the setting of a filter only, which the caller chooses.
-/

namespace TagGrid.Zinc

open Outcome

/-- What values are read as part of. -/
inductive Setting where
  /-- A grid, a list of tags or a value alone. -/
  | data
  | filter
  deriving Repr, DecidableEq

/-- Reads a ref after its sign: an id, and a text to display after one space. -/
def readRef (cs : List Char) : Outcome Ref :=
  let id := cs.takeWhile isRefChar
  let rest := cs.dropWhile isRefChar
  if id = [] then failHere .refWithoutId rest
  else
    match rest with
    | ' ' :: '"' :: quoted =>
      (readStr ('"' :: quoted)).bind fun dis rest =>
        check rest rest (Ref.ofId? (String.ofList id) (some dis))
    | rest => check rest rest (Ref.ofId? (String.ofList id) none)

def readSymbol (cs : List Char) : Outcome Symbol :=
  let rest := cs.dropWhile isSymbolChar
  check rest rest (Symbol.ofName? (String.ofList (cs.takeWhile isSymbolChar)))

/-- Reads the parenthesis that closes what was read before it, then checks that. -/
def closing {α β : Type} (o : Outcome α) (make : α → Except Violation β) : Outcome β :=
  o.bind fun a rest => (readChar ')' rest).bind fun _ rest => check rest rest (make a)

/-- Reads a media type after its opening parenthesis, quoted or bare. -/
def readMediaType (cs : List Char) : Outcome MediaType :=
  let isBare (c : Char) : Bool := c != ')' && c != '\n'
  let mime := match cs with
    | '"' :: _ => readStr cs
    | cs => ok (String.ofList (cs.takeWhile isBare)) (cs.dropWhile isBare)
  closing mime MediaType.ofText?

/-- Reads a number of a coordinate, spaces before it included. -/
def readDecimal (cs : List Char) : Outcome Double :=
  let isPart (c : Char) : Bool := c.isDigit || ['-', '+', '.', 'e', 'E'].contains c
  let text := (skipSpaces cs).takeWhile isPart
  let rest := (skipSpaces cs).dropWhile isPart
  match Double.read? text with
  | some x => ok x rest
  | none => failHere (.decimal (String.ofList text)) rest

def readCoord (cs : List Char) : Outcome Coord :=
  let pair := (readDecimal cs).bind fun lat rest =>
    (readChar ',' rest).bind fun _ rest => (readDecimal rest).map fun lng => (lat, lng)
  closing pair fun (lat, lng) => Coord.ofDegrees? lat lng

def readTypedText (typeName : List Char) (cs : List Char) : Outcome TypedText :=
  closing (readStr cs) (TypedText.ofParts? (String.ofList typeName))

/-- The values that are a word; `none` for the word of an absent value. -/
def keyword? (setting : Setting) (word : List Char) : Option (Option Value) :=
  if word = ['N'] then some none
  else if word = ['M'] then some (some .marker)
  else if word = ['R'] then some (some .remove)
  else if word = ['N', 'A'] then some (some .na)
  else if word = ['T'] then some (some (.bool true))
  else if word = ['F'] then some (some (.bool false))
  else if word = ['N', 'a', 'N'] then some (some (.ofDouble .nan))
  else if word = ['I', 'N', 'F'] then some (some (.ofDouble (.infinity false)))
  else if setting = .filter ∧ word = ['t', 'r', 'u', 'e'] then some (some (.bool true))
  else if setting = .filter ∧ word = ['f', 'a', 'l', 's', 'e'] then some (some (.bool false))
  else none

def isCapitalized (word : List Char) : Bool := word.head?.any Char.isUpper

/-- Reads a value that starts with a word: a keyword, or the name of a kind with its
contents in parentheses. -/
def readWordValue (setting : Setting) (cs : List Char) : Outcome (Option Value) :=
  let word := cs.takeWhile Text.isNameChar
  let rest := cs.dropWhile Text.isNameChar
  let unknown := failHere (.word (String.ofList word)) rest
  match keyword? setting word with
  | some value => ok value rest
  | none =>
    match rest with
    | '(' :: contents =>
      if word = ['B', 'i', 'n'] then (readMediaType contents).map fun m => some (.bin m)
      else if word = ['C'] then (readCoord contents).map fun c => some (.coord c)
      else if isCapitalized word then
        (readTypedText word contents).map fun t => some (.typed t)
      else unknown
    | _ => unknown

/-- Reads a value after a dash: the negative infinity or a number. -/
def readNegative (cs : List Char) : Outcome Value :=
  match cs with
  | 'I' :: _ =>
    let word := cs.takeWhile Char.isAlphanum
    let rest := cs.dropWhile Char.isAlphanum
    if word = ['I', 'N', 'F'] then ok (.ofDouble (.infinity true)) rest
    else failHere (.negativeWord (String.ofList word)) rest
  | c :: _ =>
    if c.isDigit then readDigitLiteral ('-' :: cs) else failHere .dash ('-' :: cs)
  | [] => failHere .dash ['-']

def readAtom (setting : Setting) (cs : List Char) : Outcome (Option Value) :=
  match cs with
  | [] => failHere .valueMissing []
  | '-' :: rest => (readNegative rest).map some
  | '"' :: _ => (readStr cs).map fun s => some (.str s)
  | '\x60' :: _ => (readUri cs).map fun s => some (.uri s)
  | '@' :: rest => (readRef rest).map fun r => some (.ref r)
  | '^' :: rest => (readSymbol rest).map fun s => some (.symbol s)
  | c :: _ =>
    if c.isDigit then (readDigitLiteral cs).map some
    else if c.isAlpha then readWordValue setting cs
    else failHere (.valueStart c) cs

mutual

/-- Reads a value; an absent one is `none`. -/
def readValue (setting : Setting) (cs : List Char) : Outcome (Option Value) :=
  match cs with
  | '[' :: rest => (readItems setting rest).map fun items => some (.list items)
  | cs => readAtom setting cs
termination_by 2 * cs.length

/-- Reads the items of a list up to its closing bracket; a comma may stand before it. An
item that takes nothing from the text is the last one. -/
def readItems (setting : Setting) (cs : List Char) : Outcome (List Value) :=
  match _h : skipSpaces cs with
  | ']' :: rest => ok [] rest
  | start =>
    match readValue setting start with
    | fail fault place rest => fail fault place rest
    | ok none rest => failHere .absentItem rest
    | ok (some item) rest =>
      match skipSpaces rest with
      | ',' :: rest =>
        if rest.length < cs.length then (readItems setting rest).map (item :: ·)
        else (readChar ']' (',' :: rest)).map fun _ => [item]
      | rest => (readChar ']' rest).map fun _ => [item]
termination_by 2 * cs.length + 1
decreasing_by
  · have := length_skipSpaces_le cs; simp only [_h] at this; omega
  · omega

end

/-- Reads the value of a tag after its name: what follows a colon, else a marker. -/
def readTagValue (setting : Setting) (cs : List Char) : Outcome (Option Value) :=
  match skipSpaces cs with
  | ':' :: rest => readValue setting (skipSpaces rest)
  | rest => ok (some .marker) rest

/-- Reads tags as long as there are names, adding them to those before. A name that no
tag can have is a fault at the place of the name. -/
def readTags (setting : Setting) (before : Dict) (cs : List Char) : Outcome Dict :=
  match skipSpaces cs with
  | [] => ok before []
  | c :: start =>
    if c.isLower then
      let name := (c :: start).takeWhile Text.isNameChar
      match readTagValue setting ((c :: start).dropWhile Text.isNameChar) with
      | fail fault place rest => fail fault place rest
      | ok value rest =>
        match before.addOption? (String.ofList name) value with
        | .error v => fail (.violation v) (c :: start) rest
        | .ok tags => if rest.length < cs.length then readTags setting tags rest else ok tags rest
    else ok before (c :: start)
termination_by cs.length

def readScalar (setting : Setting) (cs : List Char) : Outcome (Option Value) :=
  (readValue setting (skipBlanks cs)).bind fun value rest =>
    (readEnd rest).map fun _ => value

/-- Reads tags, with or without braces around them, and the end of the text. -/
def readDict (setting : Setting) (cs : List Char) : Outcome Dict :=
  match skipBlanks cs with
  | '\x7b' :: rest =>
    (readTags setting .empty rest).bind fun tags rest =>
      (readChar '\x7d' (skipBlanks rest)).bind fun _ rest => (readEnd rest).map fun _ => tags
  | start => (readTags setting .empty start).bind fun tags rest => (readEnd rest).map fun _ => tags

end TagGrid.Zinc
