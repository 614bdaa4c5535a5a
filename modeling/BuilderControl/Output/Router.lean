import BuilderControl.Mode
import BuilderControl.Output.Format
import BuilderControl.Registry
import BuilderControl.Resource

/-! # Routing of output

With an output format, standard output carries printed objects only: results are dropped, and
everything else that is said goes to standard error.  Without one, text goes to standard output and
objects are not printed. -/

namespace BuilderControl

structure Router where
  dryRun : Bool
  format : Option Format
  registry : Registry
  out : Sink
  err : Sink
deriving DecidableEq, Inhabited

namespace Router

/-- A router for a mode, unless the requested format is unknown. -/
def ofMode (mode : Mode) (registry : Registry) (out err : Sink) : Except InvalidRequest Router := do
  let format ← mode.output.mapM Format.ofName
  return ⟨mode.dryRun, format, registry, out, err⟩

/-- The line of a text, with what tells that nothing was submitted. -/
def line (text : String) (dryRun : Bool) : String :=
  text ++ (if dryRun then " (dry run)" else "") ++ "\n"

/-- Outcome of a sink's write for a router. -/
def written (ok : Bool) : Except Error Unit := if ok then .ok () else .error (.stream .full)

def writeOut (r : Router) (text : String) : Except Error Unit × Router :=
  let (ok, out) := r.out.writeText text
  (written ok, { r with out := out })

def writeErr (r : Router) (text : String) : Except Error Unit × Router :=
  let (ok, err) := r.err.writeText text
  (written ok, { r with err := err })

/-- The outcome of a command, dropped when objects are printed. -/
def emitResult (r : Router) (text : String) : Except Error Unit × Router :=
  match r.format with
  | some _ => (.ok (), r)
  | none => r.writeOut (line text r.dryRun)

/-- Progress, moved to standard error when objects are printed. -/
def emitStatus (r : Router) (text : String) : Except Error Unit × Router :=
  match r.format with
  | some _ => r.writeErr (line text r.dryRun)
  | none => r.writeOut (line text r.dryRun)

/-- A plain line, moved to standard error when objects are printed. -/
def emitLine (r : Router) (text : String) : Except Error Unit × Router :=
  match r.format with
  | some _ => r.writeErr (line text false)
  | none => r.writeOut (line text false)

/-- The document of an object as it is printed: an object that states no identity gets the one of
its type. -/
def printed (registry : Registry) (object : Resource) : Except Error Json :=
  if !object.identity.isEmpty then .ok object.document
  else
    match object.type with
    | none => .error (.unknownType "untyped object")
    | some type => match registry.lookup type with
      | none => .error (.unknownType type.name)
      | some identity => .ok ((object.document.set "apiVersion" (.str identity.apiVersion)).set "kind"
          (.str identity.kind))

/-- Prints objects, if there is a format.  Every object is resolved before anything is written. -/
def emitObjects (r : Router) (objects : List Resource) : Except Error Unit × Router :=
  match r.format with
  | none => (.ok (), r)
  | some format =>
    match objects.mapM (printed r.registry) with
    | .error e => (.error e, r)
    | .ok documents =>
      let (result, out) := r.out.writePieces (documents.flatMap format.pieces)
      (result, { r with out := out })

end Router

end BuilderControl
