import BuilderControl.Error
import BuilderControl.Output.Sink
import BuilderControl.Yaml.Printer

/-! # Formats in which objects are printed

A document is written as a sequence of pieces; each piece knows the error that is raised when it
does not fit. -/

namespace BuilderControl

inductive Format where
  | yaml
  | json
deriving DecidableEq, Inhabited

namespace Format

def ofName (name : String) : Except InvalidRequest Format :=
  if name = "yaml" then .ok .yaml
  else if name = "json" then .ok .json
  else .error (.unknownFormat name)

/-- The pieces of a printed document. -/
def pieces : Format → Json → List (String × Error)
  | .yaml, j =>
    let full := Error.stream .full
    let text := Yaml.text j
    ("---\n", full) :: (text, full) :: if text.endsWith "\n" then [] else [("\n", full)]
  | .json, j => [(j.pretty, .json (.unwritable .full)), ("\n", .stream .full)]

/-- A printed document.  In YAML, a line of dashes separates it from what was printed before. -/
def document : Format → Json → String
  | .yaml, j =>
    let text := Yaml.text j
    "---\n" ++ if text.endsWith "\n" then text else text ++ "\n"
  | .json, j => j.pretty ++ "\n"

end Format

/-- Writes pieces up to the first that does not fit. -/
def Sink.writePieces (s : Sink) : List (String × Error) → Except Error Unit × Sink
  | [] => (.ok (), s)
  | (text, error) :: rest =>
    match s.writeText text with
    | (true, s) => s.writePieces rest
    | (false, s) => (.error error, s)

end BuilderControl
