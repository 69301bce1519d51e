import TagGrid.Grid.Draft
import TagGrid.Json.Encode
import TagGrid.Json.Scan
import TagGrid.Reader

/-! # Values, dictionaries and grids from JSON

The way back from the JSON encoding. JSON numbers are numbers without a unit, and
`null` is an absent value. JSON has no line numbers, so every error is on line 0.
-/

namespace TagGrid

namespace Json

/-- What is wrong with a JSON tree. -/
inductive Fault where
  | violation (v : Violation)
  /-- A text whose contents do not belong to its kind. -/
  | contents (what text : String)
  | temporal (error : Error) (text : String)
  | kind (mark : String)
  | nullItem
  | objectAsValue
  | dictNotObject
  | gridNotObject
  | memberMissing (name : String)
  | metaNotObject
  | version (found : Json)
  | versionMissing
  | columnsNotArray
  | columnNotObject (found : Json)
  | columnUnnamed (found : Json)
  | rowsNotArray
  | rowNotObject (found : Json)
  | unknownColumn (name : String)
  deriving Repr

namespace Fault

def message : Fault → String
  | violation v => v.message
  | contents what text => "Invalid " ++ what ++ " " ++ Text.quote text
  | temporal error text => error.message ++ " in " ++ Text.quote text
  | kind mark => "Unknown JSON type prefix " ++ Text.quote mark
  | nullItem => "null is not allowed inside a list"
  | objectAsValue => "JSON object is not a scalar value"
  | dictNotObject => "Expected JSON object for dict"
  | gridNotObject => "Expected JSON object for grid"
  | memberMissing name => "Grid has no '" ++ name ++ "' member"
  | metaNotObject => "Grid 'meta' must be an object"
  | version found => "Unsupported grid version " ++ found.compact
  | versionMissing => "Grid meta has no 'ver'"
  | columnsNotArray => "Grid 'cols' must be an array"
  | columnNotObject found => "Column must be an object, not " ++ found.compact
  | columnUnnamed found => "Column has no string 'name': " ++ found.compact
  | rowsNotArray => "Grid 'rows' must be an array"
  | rowNotObject found => "Row must be an object, not " ++ found.compact
  | unknownColumn name => "Row has unknown column " ++ Text.quote name

def toError (f : Fault) : Error := .parse 0 f.message

end Fault

/-- Cuts a text at the first character `mark`, which belongs to neither part. -/
def splitOnce? (mark : Char) : List Char → Option (List Char × List Char)
  | [] => none
  | c :: cs =>
    if c = mark then some ([], cs)
    else (splitOnce? mark cs).map fun (front, back) => (c :: front, back)

def checked {α : Type} (r : Except Violation α) : Except Fault α := r.mapError .violation

/-- The number of an encoded number: a keyword or a decimal. -/
def decodeDouble? (cs : List Char) : Option Double :=
  if cs = "INF".toList then some (.infinity false)
  else if cs = "-INF".toList then some (.infinity true)
  else if cs = "NaN".toList then some .nan
  else Double.read? cs

def decodeNumber (text : String) (payload : List Char) : Except Fault Value :=
  let (digits, unit) := match splitOnce? ' ' payload with
    | some (digits, unit) => (digits, some (String.ofList unit))
    | none => (payload, none)
  match decodeDouble? digits with
  | none => .error (.contents "number" text)
  | some x =>
    match unit with
    | some unit => (checked (Number.withUnit? x unit)).map .number
    | none => .ok (.ofDouble x)

/-- An id and the text to display after a space. -/
def decodeRef (payload : List Char) : Except Fault Value :=
  let ref := match splitOnce? ' ' payload with
    | some (id, dis) => Ref.ofId? (String.ofList id) (some (String.ofList dis))
    | none => Ref.ofId? (String.ofList payload) none
  (checked ref).map .ref

/-- A date or time in its Zinc text, of the kind that the text is marked with. -/
def decodeTemporal (kind : Kind) (text : String) (payload : List Char) : Except Fault Value :=
  match Zinc.toValue? (String.ofList payload) with
  | .error e => .error (.temporal e text)
  | .ok (some v) =>
    if v.kind = kind then .ok v else .error (.contents "temporal value" text)
  | .ok none => .error (.contents "temporal value" text)

/-- A latitude and a longitude in degrees with a comma between them. -/
def decodeCoord (text : String) (payload : List Char) : Except Fault Value :=
  match splitOnce? ',' payload with
  | none => .error (.contents "coord" text)
  | some (lat, lng) =>
    match Double.read? (Text.trimBlanks lat), Double.read? (Text.trimBlanks lng) with
    | some lat, some lng => (checked (Coord.ofDegrees? lat lng)).map .coord
    | _, _ => .error (.contents "coord" text)

/-- A type name and a text with a colon between them. Nothing at all is an old spelling
of the instruction to delete a tag. -/
def decodeTyped (text : String) (payload : List Char) : Except Fault Value :=
  if payload = [] then .ok .remove
  else
    match splitOnce? ':' payload with
    | none => .error (.contents "xstr" text)
    | some (typeName, contents) =>
      (checked (TypedText.ofParts? (String.ofList typeName) (String.ofList contents))).map .typed

def decodeStr (text : String) : Except Fault Value :=
  if Json.looksEncoded text.toList then
    let payload := text.toList.drop 2
    match text.toList with
    | 'm' :: _ => .ok .marker
    | '-' :: _ => .ok .remove
    | 'z' :: _ => .ok .na
    | 's' :: _ => .ok (.str (String.ofList payload))
    | 'u' :: _ => .ok (.uri (String.ofList payload))
    | 'n' :: _ => decodeNumber text payload
    | 'r' :: _ => decodeRef payload
    | 'd' :: _ => decodeTemporal .date text payload
    | 'h' :: _ => decodeTemporal .time text payload
    | 't' :: _ => decodeTemporal .dateTime text payload
    | 'c' :: _ => decodeCoord text payload
    | 'b' :: _ => (checked (MediaType.ofText? (String.ofList payload))).map .bin
    | 'y' :: _ => (checked (Symbol.ofName? (String.ofList payload))).map .symbol
    | 'x' :: _ => decodeTyped text payload
    | cs => .error (.kind (String.ofList (cs.take 2)))
  else .ok (.str text)

mutual

/-- The value that a tree stands for; an absent one is `none`. -/
def decodeValue : Json → Except Fault (Option Value)
  | null => .ok none
  | bool b => .ok (some (.bool b))
  | number n => .ok (some (.ofDouble n.toDouble))
  | str s => (decodeStr s).map some
  | array items => (decodeItems items).map fun vs => some (.list vs)
  | object _ => .error .objectAsValue

def decodeItems : List Json → Except Fault (List Value)
  | [] => .ok []
  | item :: rest =>
    match decodeValue item with
    | .error fault => .error fault
    | .ok none => .error .nullItem
    | .ok (some v) => (decodeItems rest).map (v :: ·)

end

/-- The tags of the members of an object, without the member of the name `except`. -/
def decodeTags (except : Option String) (members : List (String × Json)) : Except Fault Dict :=
  members.foldlM (fun d m =>
    if except = some m.1 then .ok d
    else
      match decodeValue m.2 with
      | .error fault => .error fault
      | .ok value => checked (d.addOption? m.1 value)) Dict.empty

def decodeDict : Json → Except Fault Dict
  | object members => decodeTags none members
  | _ => .error .dictNotObject

/-- The tags of a grid, whose version must be the known one. -/
def decodeGridTags (members : List (String × Json)) : Except Fault Dict :=
  match member? members "ver" with
  | some (.str version) =>
    if version = Json.version then decodeTags (some "ver") members
    else .error (.version (.str version))
  | some other => .error (.version other)
  | none => .error .versionMissing

/-- Adds the column that a tree stands for. Its tags are examined before its name. -/
def decodeColumn (draft : GridDraft) (tree : Json) : Except Fault GridDraft :=
  match tree with
  | object members =>
    match member? members "name" with
    | some (.str name) => do
      let tags ← decodeTags (some "name") members
      let draft ← checked (draft.addColumn? name)
      return draft.setColumnTags name tags
    | _ => .error (.columnUnnamed tree)
  | _ => .error (.columnNotObject tree)

/-- The cell of a name; it is blank if there is no such member. -/
def decodeCell (members : List (String × Json)) (name : String) :
    Except Fault (Option Value) :=
  match member? members name with
  | some tree => decodeValue tree
  | none => .ok none

/-- Adds the row that a tree stands for, whose members must all be columns. -/
def decodeRow (draft : GridDraft) (tree : Json) : Except Fault GridDraft :=
  match tree with
  | object members =>
    let names := draft.columns.map fun c => c.name.text
    match members.find? fun m => !names.contains m.1 with
    | some (name, _) => .error (.unknownColumn name)
    | none => do
      let cells ← names.mapM (decodeCell members)
      checked (draft.addRow? cells)
  | _ => .error (.rowNotObject tree)

/-- A member of a grid that must be there. -/
def requireMember (members : List (String × Json)) (name : String) : Except Fault Json :=
  match member? members name with
  | some tree => .ok tree
  | none => .error (.memberMissing name)

def decodeGrid : Json → Except Fault Grid
  | object members => do
    let tags ← match ← requireMember members "meta" with
      | object tags => decodeGridTags tags
      | _ => .error .metaNotObject
    let columns ← match ← requireMember members "cols" with
      | array columns => .ok columns
      | _ => .error .columnsNotArray
    let draft ← columns.foldlM decodeColumn (GridDraft.empty.setTags tags)
    let rows ← match ← requireMember members "rows" with
      | array rows => .ok rows
      | _ => .error .rowsNotArray
    let draft ← rows.foldlM decodeRow draft
    checked draft.build?
  | _ => .error .gridNotObject

/-- The value of a tree, or an error; an absent value is `none`. -/
def toValue? (tree : Json) : Except Error (Option Value) :=
  (decodeValue tree).mapError Fault.toError

/-- The dictionary of a tree, or an error. -/
def toDict? (tree : Json) : Except Error Dict := (decodeDict tree).mapError Fault.toError

/-- The grid of a tree, or an error. -/
def toGrid? (tree : Json) : Except Error Grid := (decodeGrid tree).mapError Fault.toError

end Json

/-- The grid of a JSON text, or an error. -/
def Grid.ofJsonText? (text : String) : Except Error Grid := do (← Json.parse? text).toGrid?

end TagGrid
