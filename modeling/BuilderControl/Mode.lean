/-! # Modes of execution

How one invocation behaves: whether it submits anything, what it prints, and whether it waits. -/

namespace BuilderControl

structure Mode where
  /-- Nothing is submitted to the cluster. -/
  dryRun : Bool := false
  /-- Format in which objects are printed instead of status text; never empty. -/
  output : Option String := none
  /-- Waiting was asked for. -/
  wait : Bool := false
deriving DecidableEq, Inhabited

namespace Mode

/-- The mode of some flags; an empty format counts as none. -/
def ofFlags (dryRun : Bool) (output : Option String) (wait : Bool) : Mode :=
  ⟨dryRun, output.filter (· ≠ ""), wait⟩

def outputRequested (m : Mode) : Bool := m.output.isSome

/-- Waiting makes sense only after a real change, and only when status text is shown. -/
def shouldWait (m : Mode) : Bool := m.wait && !m.dryRun && !m.outputRequested

end Mode

end BuilderControl
