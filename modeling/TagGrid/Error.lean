import TagGrid.Violation

/-! # Errors

The errors of the public operations. An error carries its text as data, because an
error grid can bring back any text; inside the library a cause has a type of its own
(`Violation` and the faults of the readers) and is worded when it becomes an error.
-/

namespace TagGrid

/-- An error of a public operation. -/
inductive Error where
  /-- Text that is not well formed. The first line is 1; 0 stands where no line is known. -/
  | parse (line : Nat) (message : String)
  | unknownName (name : String)
  | unknownRec (id : String)
  | unknownWatch (id : String)
  | invalidArgument (message : String)
  | unsupportedType (message : String)
  | call (dis : String) (trace : Option String)
  | json (message : String)
  /-- A failure of the stream that is read or written. -/
  | io (message : String)
  deriving Repr, DecidableEq

namespace Error

def ofViolation (v : Violation) : Error := .invalidArgument v.message

def message : Error → String
  | parse line text => "Parse error at line " ++ toString line ++ ": " ++ text
  | unknownName name => "Unknown name: " ++ name
  | unknownRec id => "Unknown rec: " ++ id
  | unknownWatch id => "Unknown watch: " ++ id
  | invalidArgument text => "Invalid argument: " ++ text
  | unsupportedType text => "Unsupported type: " ++ text
  | call dis _ => "Call error: " ++ dis
  | json text => "JSON error: " ++ text
  | io text => "IO error: " ++ text

def line? : Error → Option Nat
  | parse line _ => some line
  | _ => none

/-- An error spelled out by constructor and fields, for the trace of an error grid. -/
def trace (hidden : Char → Bool) : Error → String
  | parse line text =>
    "Parse \x7b line: " ++ toString line ++ ", msg: " ++ Text.quoteHiding hidden text ++ " \x7d"
  | unknownName name => "UnknownName(" ++ Text.quoteHiding hidden name ++ ")"
  | unknownRec id => "UnknownRec(" ++ Text.quoteHiding hidden id ++ ")"
  | unknownWatch id => "UnknownWatch(" ++ Text.quoteHiding hidden id ++ ")"
  | invalidArgument text => "InvalidArgument(" ++ Text.quoteHiding hidden text ++ ")"
  | unsupportedType text => "UnsupportedType(" ++ Text.quoteHiding hidden text ++ ")"
  | call dis none => "Call \x7b dis: " ++ Text.quoteHiding hidden dis ++ ", trace: None \x7d"
  | call dis (some text) =>
    "Call \x7b dis: " ++ Text.quoteHiding hidden dis ++ ", trace: Some(" ++
      Text.quoteHiding hidden text ++ ") \x7d"
  | json text => "Json(" ++ Text.quoteHiding hidden text ++ ")"
  | io text => "Io(" ++ Text.quoteHiding hidden text ++ ")"

end Error

end TagGrid
