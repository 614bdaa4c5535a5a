import BuilderControl.Schema
import BuilderControl.Base64
import BuilderControl.Instant
import BuilderControl.Json.Located
import BuilderControl.Json.Printer
import BuilderControl.Text.Escaped

/-! # Why a document is not read

A decode error has a cause and, when the document was read from text, a place.  `Dialect` holds the
two spellings that differ between formats. -/

namespace BuilderControl

/-- What stood where something else was expected. -/
inductive Found where
  | nothing
  | flag (value : Bool)
  | integer (value : Int)
  | float (bits : UInt64)
  | text (value : String)
  | list
  | map
deriving DecidableEq, Inhabited

/-- Spellings of a format. -/
structure Dialect where
  /-- The value that stands for none. -/
  nothing : String
  /-- A floating point number. -/
  float : UInt64 → String

namespace Dialect

def json : Dialect := ⟨"null", Binary64.render Json.numberLayout⟩
def yaml : Dialect := ⟨"unit value", Binary64.renderPlain⟩

end Dialect

/-- What is added to integers that 64 bits can not hold. -/
def wideName (i : Int) : String :=
  if Nat.pow 2 64 ≤ i then " as u128" else if i < -(Nat.pow 2 63) then " as i128" else ""

def Found.describe (d : Dialect) : Found → String
  | .nothing => d.nothing
  | .flag b => "boolean `" ++ (if b then "true" else "false") ++ "`"
  | .integer i => "integer `" ++ toString i ++ "`" ++ wideName i
  | .float bits => "floating point `" ++ d.float bits ++ "`"
  | .text s => "string " ++ Text.escaped s
  | .list => "sequence"
  | .map => "map"

inductive DecodeCause where
  | wrongType (found : Found) (expected : String)
  | wrongValue (found : Found) (expected : String)
  | wrongLength (length : Nat) (expected : String)
  | missingField (name : String)
  | duplicateField (name : String)
  | unknownChoice (found : String) (options : List String)
  | badBytes (fault : Base64.Fault)
  | badInstant (fault : Instant.Fault)
  /-- The text itself is at fault. -/
  | malformed (kind : Json.FaultKind)
deriving DecidableEq, Inhabited

/-- Names between back quotes, as alternatives. -/
def alternatives (options : List String) : String :=
  let quote (name : String) := "`" ++ name ++ "`"
  match options with
  | [a] => quote a
  | [a, b] => quote a ++ " or " ++ quote b
  | options => "one of " ++ ", ".intercalate (options.map quote)

def DecodeCause.message (d : Dialect) : DecodeCause → String
  | .wrongType found expected => "invalid type: " ++ found.describe d ++ ", expected " ++ expected
  | .wrongValue found expected =>
    "invalid value: " ++ found.describe d ++ ", expected " ++ expected
  | .wrongLength length expected =>
    "invalid length " ++ toString length ++ ", expected " ++ expected
  | .missingField name => "missing field `" ++ name ++ "`"
  | .duplicateField name => "duplicate field `" ++ name ++ "`"
  | .unknownChoice found options =>
    "unknown variant `" ++ found ++ "`, expected " ++ alternatives options
  | .badBytes fault => fault.message
  | .badInstant fault => fault.message
  | .malformed kind => kind.message

/-- A place in a text: where it stands, and how it is reached from the document's top. -/
structure Spot where
  route : Option String
  place : Json.LineColumn
deriving DecidableEq, Inhabited

structure DecodeError where
  cause : DecodeCause
  spot : Option Spot := none
deriving DecidableEq, Inhabited

namespace DecodeError

/-- Gives a place to an error that has none. -/
def settle (e : DecodeError) (spot : Option Spot) : DecodeError := { e with spot := e.spot.or spot }

def message (d : Dialect) (e : DecodeError) : String :=
  let text := e.cause.message d
  match e.spot with
  | none => text
  | some s =>
    (s.route.elim "" (· ++ ": ")) ++ text ++ " at line " ++ toString s.place.line ++ " column "
      ++ toString s.place.column

end DecodeError

end BuilderControl
