import TagGrid.Json.Decode

/-! # Values and dictionaries straight from JSON text

A value or a dictionary can be read from JSON text without a tree in between. The
first problem of the text in its order is the one reported: contents that are refused,
JSON of another shape, or text that is not JSON. The same rules read from a tree.
-/

namespace TagGrid.Json

/-- What a value is called when something else is found. -/
def valueExpected : String := "a Haystack JSON value"

/-- What a dictionary is called when something else is found. -/
def dictExpected : String := "a map of tag names to Haystack values"

/-- The value of a scalar; `null` is none. -/
def acceptScalar : Scalar → Except ReadFault Value
  | .null => .error (.mismatch .null valueExpected)
  | .bool b => .ok (.bool b)
  | .number n => .ok (.ofDouble n.toDouble)
  | .str s => (decodeStr s).mapError fun fault => .refused fault.toError

/-- Adds a tag unless its value is absent. -/
def acceptTag (d : Dict) (name : String) (value : Option Value) : Except ReadFault Dict :=
  (d.addOption? name value).mapError fun v => .refused (.ofViolation v)

/-- Reads a value in which lists are nested at most so deeply. -/
def readValue : Nat → List Char → Read Value
  | depth, cs =>
    match skipJsonBlanks cs, depth with
    | '[' :: _, 0 => .error .malformed
    | '\x7b' :: _, 0 => .error .malformed
    | '[' :: rest, depth + 1 =>
      (readArray (readValue depth) rest).map fun (items, rest) => (.list items, rest)
    | '\x7b' :: _, _ + 1 => .error (.mismatch .map valueExpected)
    | start, _ =>
      match readJsonScalar start with
      | .error fault => .error fault
      | .ok (scalar, rest) => (acceptScalar scalar).map fun v => (v, rest)

/-- Reads the value of a member of a dictionary; `null` is absent. -/
def readOptionalValue (depth : Nat) (cs : List Char) : Read (Option Value) :=
  match skipJsonBlanks cs with
  | 'n' :: rest =>
    match rest with
    | 'u' :: 'l' :: 'l' :: rest => .ok (none, rest)
    | _ => .error .malformed
  | start => (readValue depth start).map fun (v, rest) => (some v, rest)

/-- Reads a dictionary. A tag that comes again takes the later value. -/
def readDict (cs : List Char) : Read Dict :=
  match skipJsonBlanks cs with
  | '\x7b' :: rest =>
    readObject (fun d name cs =>
      match readOptionalValue (depthLimit - 1) cs with
      | .error fault => .error fault
      | .ok (value, rest) => (acceptTag d name value).map fun d => (d, rest)) Dict.empty rest
  | '[' :: _ => .error (.mismatch .sequence dictExpected)
  | start =>
    match readJsonScalar start with
    | .error fault => .error fault
    | .ok (scalar, _) => .error (.mismatch scalar.shape dictExpected)

/-- Reads a grid, of which a tree is made first. -/
def readGrid (cs : List Char) : Read Grid :=
  match readTree depthLimit cs with
  | .error fault => .error fault
  | .ok (tree, rest) =>
    match decodeGrid tree with
    | .ok grid => .ok (grid, rest)
    | .error fault => .error (.refused fault.toError)

def valueOfText? (text : String) : Except ReadFault Value :=
  readToEnd (readValue depthLimit text.toList)

def dictOfText? (text : String) : Except ReadFault Dict := readToEnd (readDict text.toList)

def gridOfText? (text : String) : Except ReadFault Grid := readToEnd (readGrid text.toList)

mutual

/-- The value of a tree by the rules of a text. -/
def acceptValue : Json → Except ReadFault Value
  | null => acceptScalar .null
  | bool b => acceptScalar (.bool b)
  | number n => acceptScalar (.number n)
  | str s => acceptScalar (.str s)
  | array items => (acceptItems items).map .list
  | object _ => .error (.mismatch .map valueExpected)

/-- The values of items by the rules of a text. -/
def acceptItems : List Json → Except ReadFault (List Value)
  | [] => .ok []
  | item :: rest =>
    match acceptValue item with
    | .error fault => .error fault
    | .ok v => (acceptItems rest).map (v :: ·)

end

/-- The value of a member of a dictionary by the rules of a text. -/
def acceptOptionalValue : Json → Except ReadFault (Option Value)
  | null => .ok none
  | tree => (acceptValue tree).map some

/-- Adds the tag of a member by the rules of a text. -/
def acceptMember (d : Dict) (m : String × Json) : Except ReadFault Dict :=
  match acceptOptionalValue m.2 with
  | .error fault => .error fault
  | .ok value => acceptTag d m.1 value

/-- The dictionary of a tree by the rules of a text. -/
def acceptDict : Json → Except ReadFault Dict
  | object members => members.foldlM acceptMember Dict.empty
  | null => .error (.mismatch .null dictExpected)
  | bool b => .error (.mismatch (.bool b) dictExpected)
  | number n => .error (.mismatch (.number n) dictExpected)
  | str s => .error (.mismatch (.str s) dictExpected)
  | array _ => .error (.mismatch .sequence dictExpected)

/-- The grid of a tree by the rules of a text. -/
def acceptGrid (tree : Json) : Except ReadFault Grid :=
  (decodeGrid tree).mapError fun fault => .refused fault.toError

end TagGrid.Json
