import TagGrid.Filter.Basic
import TagGrid.Filter.Reader
import TagGrid.Zinc.GridReader

/-! # Readers

A reader holds the text that is still unread and the number of its first line. It can
be asked for one thing after another; after a failure it goes on where reading stopped.
Filters are read in a setting of their own, which ends with them.
-/

namespace TagGrid

/-- The unread text, the number of its first line, and the setting in which values are
read. -/
structure Reader where
  line : Nat
  rest : List Char
  setting : Zinc.Setting
  deriving Repr, DecidableEq

namespace Reader

def ofText (text : String) : Reader := ⟨1, text.toList, .data⟩

/-- The reader at the start of a text in UTF-8. -/
def ofBytes? (bytes : ByteArray) : Except Error Reader :=
  match String.fromUTF8? bytes with
  | some text => .ok (ofText text)
  | none => .error (.io "stream did not contain valid UTF-8")

/-- Reads something: the result, and the reader after it. A fault becomes an error at
the line of its place. -/
def run {α : Type} (r : Reader) (read : Zinc.Setting → List Char → Zinc.Outcome α) :
    Except Error α × Reader :=
  let after (rest : List Char) : Reader :=
    ⟨r.line + Zinc.linesBefore r.rest rest, rest, r.setting⟩
  match read r.setting r.rest with
  | .ok value rest => (.ok value, after rest)
  | .fail fault place rest =>
    (.error (fault.toError (r.line + Zinc.linesBefore r.rest place)), after rest)

/-- Reads a value alone; an absent one is `none`. -/
def scalar (r : Reader) : Except Error (Option Value) × Reader := r.run Zinc.readScalar

def dict (r : Reader) : Except Error Dict × Reader := r.run Zinc.readDict

def grid (r : Reader) : Except Error Grid × Reader := r.run Zinc.readGrid

def grids (r : Reader) : Except Error (List Grid) × Reader := r.run Zinc.readGrids

/-- Reads a filter. Whatever comes of it, the setting is put back afterwards. -/
def filter (r : Reader) : Except Error Filter × Reader :=
  let (result, after) := { r with setting := .filter }.run Filter.readFilter
  (result, { after with setting := r.setting })

end Reader

/-- What a reader can be asked for. -/
inductive Request where
  | scalar
  | dict
  | grid
  | grids
  | filter
  deriving Repr, DecidableEq

/-- What a request brings when nothing is wrong. -/
def Request.Result : Request → Type
  | scalar => Option Value
  | dict => Dict
  | grid => Grid
  | grids => List Grid
  | filter => Filter

namespace Reader

def ask (r : Reader) : (q : Request) → Except Error q.Result × Reader
  | .scalar => r.scalar
  | .dict => r.dict
  | .grid => r.grid
  | .grids => r.grids
  | .filter => r.filter

/-- The reader after some requests, whatever came of them. -/
def after (r : Reader) (requests : List Request) : Reader :=
  requests.foldl (fun r q => (r.ask q).2) r

end Reader

namespace Zinc

/-- The value that a text is; an absent one is `none`. -/
def toValue? (text : String) : Except Error (Option Value) := (Reader.ofText text).scalar.1

def toDict? (text : String) : Except Error Dict := (Reader.ofText text).dict.1

/-- The first grid of a text. -/
def toGrid? (text : String) : Except Error Grid := (Reader.ofText text).grid.1

/-- The first grid of a text in UTF-8. -/
def toGridOfBytes? (bytes : ByteArray) : Except Error Grid := do
  return (← (← Reader.ofBytes? bytes).grid.1)

end Zinc

def Filter.parse? (text : String) : Except Error Filter := (Reader.ofText text).filter.1

def Filter.toString (f : Filter) : String := String.ofList f.text

end TagGrid
