import TagGrid.Violation

/-! # What values hold

The contents of the kinds of value that restrict them. Each has a constructor that checks
what it is given and says why it refuses.
-/

namespace TagGrid

/-! ## Numbers with units

A number is a double with an optional unit. A unit is an opaque name; only a finite
number carries one, because the infinities and not-a-number are keywords in text.
-/

/-- What a unit is made of: letters, some signs, and everything beyond ASCII. -/
def isUnitChar (c : Char) : Bool :=
  c.isAlpha || c == '%' || c == '_' || c == '/' || c == '$' || c == '-' || c == '*' ||
    127 < c.toNat

/-- A unit is not empty and starts with neither a dash nor a star. -/
def isUnitName : List Char → Bool
  | [] => false
  | c :: cs => c != '-' && c != '*' && (c :: cs).all isUnitChar

/-- A number with an optional unit. -/
structure Number where
  value : Double
  unit : Option String
  valid : ∀ u, unit = some u → isUnitName u.toList = true ∧ value.isFinite = true
  deriving Repr, DecidableEq

namespace Number

def plain (value : Double) : Number := ⟨value, none, fun _ h => nomatch h⟩

/-- A number with a unit. The unit is checked before the number. -/
def withUnit? (value : Double) (unit : String) : Except Violation Number :=
  if hu : isUnitName unit.toList = true then
    if hv : value.isFinite = true then
      .ok ⟨value, some unit, fun _ h => Option.some.inj h ▸ ⟨hu, hv⟩⟩
    else .error (.unitOnSpecial value)
  else .error (.unitName unit)

/-- Whether two numbers are equal: the zeros are equal, and so is not-a-number to
itself; units are compared as text. -/
def same (a b : Number) : Bool := a.value.same b.value && a.unit == b.unit

/-- The text of a number: the value, then the unit with nothing between. -/
def text (n : Number) : List Char :=
  n.value.text ++ match n.unit with
    | some unit => unit.toList
    | none => []

end Number

/-! ## References

A ref names another record by its id and may carry a text to display for it.
-/

def isRefChar (c : Char) : Bool :=
  c.isAlphanum || c == '_' || c == '.' || c == '~' || c == '-'

def isRefId (cs : List Char) : Bool := !cs.isEmpty && cs.all isRefChar

/-- A reference to a record. -/
structure Ref where
  id : String
  dis : Option String
  valid : isRefId id.toList = true
  deriving Repr, DecidableEq

namespace Ref

/-- The ref with an id and a text to display, if the id is one. -/
def ofId? (id : String) (dis : Option String) : Except Violation Ref :=
  if h : isRefId id.toList = true then .ok ⟨id, dis, h⟩ else .error (.refId id)

/-- Whether two refs name the same record; the display text does not matter. -/
def same (a b : Ref) : Bool := a.id == b.id

end Ref

/-! ## Coordinates

A place on the globe in millionths of a degree, and its text in degrees without
trailing zeros.
-/

/-- A latitude and a longitude in millionths of a degree. -/
structure Coord where
  microLat : Int
  microLng : Int
  valid : -90000000 ≤ microLat ∧ microLat ≤ 90000000 ∧
    -180000000 ≤ microLng ∧ microLng ≤ 180000000
  deriving Repr, DecidableEq

namespace Coord

/-- The coordinate with the given millionths of a degree, latitude checked first. -/
def ofMicro? (microLat microLng : Int) : Except Violation Coord :=
  if hlat : microLat < -90000000 ∨ 90000000 < microLat then .error (.microLatitude microLat)
  else if hlng : microLng < -180000000 ∨ 180000000 < microLng then
    .error (.microLongitude microLng)
  else .ok ⟨microLat, microLng, by omega⟩

/-- A number of degrees in millionths: the product with a million as a double, rounded to
an integer with a half going away from zero. -/
def microOfDegrees (degrees : Double) : Int :=
  ((degrees.mul (Double.ofNat 1000000)).roundToInt?).getD 0

/-- The coordinate with the given degrees, latitude checked first. -/
def ofDegrees? (lat lng : Double) : Except Violation Coord :=
  if !lat.inRange (-90) 90 then .error (.latitude lat)
  else if !lng.inRange (-180) 180 then .error (.longitude lng)
  else ofMicro? (microOfDegrees lat) (microOfDegrees lng)

/-- Millionths of a degree as a double in degrees. -/
def degrees (micro : Int) : Double := (Double.ofInt micro).div (Double.ofNat 1000000)

/-- The latitude in degrees. -/
def lat (c : Coord) : Double := degrees c.microLat

/-- The longitude in degrees. -/
def lng (c : Coord) : Double := degrees c.microLng

def trimZeros (ds : List Char) : List Char := (ds.reverse.dropWhile (· == '0')).reverse

/-- Millionths of a degree as decimal degrees: no zeros at the end, and no point before
an empty fraction. -/
def microText (micro : Int) : List Char :=
  (if micro < 0 then ['-'] else []) ++ Nat.toDigits 10 (micro.natAbs / 1000000) ++
    (if micro.natAbs % 1000000 = 0 then []
     else '.' :: trimZeros (Text.decimalPadded 6 (micro.natAbs % 1000000)))

/-- The two numbers of a coordinate with a comma between. -/
def pairText (c : Coord) : List Char := microText c.microLat ++ ',' :: microText c.microLng

def text (c : Coord) : List Char := ['C', '('] ++ c.pairText ++ [')']

end Coord

/-! ## Restricted texts

Media types of binary data, symbols of a vocabulary, and texts with the name of a type
that the library does not know.
-/

/-- What a media type is made of: ASCII without control characters and without the
parenthesis that closes it. -/
def isMediaChar (c : Char) : Bool := c.toNat < 128 && c != ')' && ' ' ≤ c

/-- The media type of binary data kept elsewhere. -/
structure MediaType where
  mime : String
  valid : (!mime.toList.isEmpty && mime.toList.all isMediaChar) = true
  deriving Repr, DecidableEq

def MediaType.ofText? (mime : String) : Except Violation MediaType :=
  if h : (!mime.toList.isEmpty && mime.toList.all isMediaChar) = true then .ok ⟨mime, h⟩
  else .error (.mediaType mime)

def isSymbolChar (c : Char) : Bool :=
  c.isAlphanum || c == '_' || c == '-' || c == '.' || c == ':'

/-- A symbol starts with a letter and has at most one colon, which is not its end. -/
def isSymbolName (cs : List Char) : Bool :=
  (match cs with
   | [] => false
   | c :: _ => c.isAlpha) &&
  cs.all isSymbolChar && cs.count ':' ≤ 1 && cs.getLast? != some ':'

/-- A name of a vocabulary, such as `site` or `ph.equips:ahu`. -/
structure Symbol where
  name : String
  valid : isSymbolName name.toList = true
  deriving Repr, DecidableEq

def Symbol.ofName? (name : String) : Except Violation Symbol :=
  if h : isSymbolName name.toList = true then .ok ⟨name, h⟩ else .error (.symbol name)

/-- A type name starts with a capital and goes on with letters, digits and underscores. -/
def isTypeName : List Char → Bool
  | [] => false
  | c :: cs => c.isUpper && cs.all Text.isNameChar

/-- A text with the name of its type. -/
structure TypedText where
  typeName : String
  text : String
  valid : isTypeName typeName.toList = true
  deriving Repr, DecidableEq

def TypedText.ofParts? (typeName text : String) : Except Violation TypedText :=
  if h : isTypeName typeName.toList = true then .ok ⟨typeName, text, h⟩
  else .error (.typeName typeName)

end TagGrid
