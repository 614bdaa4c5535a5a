import BuilderControl.Invocation
import BuilderControl.Kubeconfig

/-! # The program as a whole

From arguments and surroundings to an exit code and what was written.  What can be seen to be wrong
from the arguments alone is told before a cluster is looked for. -/

namespace BuilderControl

/-- What surrounds a run of the program. -/
structure Surroundings where
  files : Files
  /-- The user's directory. -/
  home : String
  /-- Paths of kubeconfig files between colons. -/
  kubeconfig : Option String
deriving DecidableEq, Inhabited

/-- How a run of the program ends. -/
structure Exit where
  code : UInt32 := 0
  out : String := ""
  err : String := ""
deriving DecidableEq, Inhabited

namespace Exit

/-- The exit of a program that was not called properly, or only asked about itself. -/
def ofUsage (e : CommandLine.UsageError) : Exit :=
  if e.isAnswer then { out := e.text } else { code := 2, err := e.text }

/-- The exit after a failure. -/
def failed (message : String) : Exit := { code := 1, err := "Error: " ++ message ++ "\n" }

def ofHalt : Halt → Exit
  | .failed e => failed e.message
  | .hung => failed "the server never answered"

/-- The exit after an invocation has ended. -/
def ofEnding {σ : Type} (ending : Ending σ) : Exit :=
  let exit := ending.halt.elim {} ofHalt
  let warnings := (LogEntry.shown .warn ending.logs).map fun entry => entry.render ++ "\n"
  { exit with
    out := ending.out.textFrom 0
    err := String.join warnings ++ ending.err.textFrom 0 ++ exit.err }

end Exit

namespace Program

/-- Where the kubeconfig is. -/
def configPaths (s : Surroundings) : List String := Kubeconfig.paths s.home s.kubeconfig

/-- The files that may be read for some arguments. -/
def paths (s : Surroundings) (args : List String) : List String :=
  match Invocation.ofArgs args with
  | .error _ => []
  | .ok invocation => invocation.command.order?.toList ++ configPaths s

/-- Runs the program; `connect` gives the store behind a cluster. -/
def run {σ : Type} [Store σ] (connect : Kubeconfig.Target → σ) (s : Surroundings)
    (args : List String) : Exit :=
  match Invocation.ofArgs args with
  | .error (.usage e) => .ofUsage e
  | .error (.invalid request) => .failed request.message
  | .ok invocation =>
    match Router.ofMode invocation.mode .standard {} {} with
    | .error request => .failed request.message
    | .ok _ =>
      match (Kubeconfig.load s.files (configPaths s)).bind Kubeconfig.target with
      | none => .failed "failed to load kubernetes config"
      | some target => .ofEnding (invocation.perform s.files none {} {} (connect target))

end Program

end BuilderControl
