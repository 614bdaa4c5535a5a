/-! # Log entries -/

namespace BuilderControl

inductive Level where
  | warn | debug | trace
deriving DecidableEq, Inhabited

namespace Level

def name : Level → String
  | .warn => "WARN"
  | .debug => "DEBUG"
  | .trace => "TRACE"

/-- Whether entries of a level are shown when `shown` is the least severe level to show. -/
def isShownAt (level shown : Level) : Bool :=
  match level, shown with
  | .warn, _ | .debug, .debug | _, .trace => true
  | _, _ => false

end Level

structure LogEntry where
  level : Level
  text : String
deriving DecidableEq, Inhabited

namespace LogEntry

def render (e : LogEntry) : String := e.level.name ++ " " ++ e.text

/-- The entries shown at a level. -/
def shown (level : Level) (entries : List LogEntry) : List LogEntry :=
  entries.filter fun e => e.level.isShownAt level

end LogEntry

end BuilderControl
