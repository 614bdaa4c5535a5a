import BuilderControl.Json.Basic

/-! # Paths into a document

A path names a place inside a document: each step goes to a member of an object or to an item of
an array.  `Path.text` is the notation that the API server uses in its messages. -/

namespace BuilderControl

/-- One step of a path. -/
inductive Step where
  | field (name : String)
  | index (position : Nat)
deriving DecidableEq, Inhabited

abbrev Path := List Step

namespace Step

/-- The member a step goes to. -/
def field? : Step → Option String
  | .field name => some name
  | .index _ => none

/-- Whether a field name has a character that the notation uses itself. -/
def needsQuotes (name : String) : Bool :=
  name.toList.any fun c => c == '"' || c == '.' || c == '['

/-- A field name between quotes; quotes inside it are escaped. -/
def quoteName (name : String) : String :=
  "\"" ++ String.ofList (name.toList.flatMap fun c => if c == '"' then ['\\', '"'] else [c]) ++ "\""

def text : Step → String
  | .field name => "." ++ if needsQuotes name then quoteName name else name
  | .index position => "[" ++ toString position ++ "]"

end Step

namespace Path

def text : Path → String
  | [] => "."
  | steps => String.join (steps.map Step.text)

end Path

/-- Why a path does not resolve. -/
inductive LookupError where
  | fieldNotFound
  | notAnObject
  | notAnArray
  | outOfBounds
  | emptyPath
  /-- The reason, with the place where the failing step was taken. -/
  | at (place : Path) (reason : LookupError)
deriving DecidableEq, Inhabited

def LookupError.message : LookupError → String
  | .fieldNotFound => "field not found"
  | .notAnObject => "field parent is not an object"
  | .notAnArray => "index target is not an array"
  | .outOfBounds => "index out of bounds"
  | .emptyPath => "path is empty"
  | .at place reason => "at " ++ place.text ++ ": " ++ reason.message

end BuilderControl
