import BuilderControl.Store

/-! # Waiting until an object is ready

A watch is followed until the first instant that decides: an object that is ready or has failed, an
error other than an interrupted watch, the end of the watch, or the instant at which waiting is
given up.  Giving up leaves the change in place that was waited for. -/

namespace BuilderControl

/-- How long to wait. -/
structure Patience where
  timeout : Duration := .ofSeconds 600
  /-- Milliseconds after which waiting is interrupted, if it is. -/
  interrupt : Option Nat := none
deriving DecidableEq, Inhabited

namespace Patience

/-- Whether the interruption comes before the timeout. -/
def isInterrupted (p : Patience) : Bool := p.interrupt.any (· < p.timeout.milliseconds)

/-- The instant at which waiting is given up. -/
def limit (p : Patience) : Nat :=
  match p.interrupt with
  | some at' => min at' p.timeout.milliseconds
  | none => p.timeout.milliseconds

/-- The error with which waiting is given up. -/
def giveUp (p : Patience) (type : ResourceType) (location : Location) : Error :=
  if p.isInterrupted then .waitInterrupted type location
  else .waitTimeout type location p.timeout

end Patience

/-- How a wait ended. -/
structure WaitOutcome (σ : Type) where
  result : Except Error Resource
  store : σ
  logs : List LogEntry := []
  /-- Milliseconds from the start of the wait to its end. -/
  ended : Nat

/-- What a report means for a wait. -/
inductive Verdict where
  | decided (result : Except Error Resource)
  /-- Waiting goes on, after this is logged. -/
  | goOn (entry : LogEntry)

/-- Judges a report about an object. -/
def Verdict.ofReport (type : ResourceType) (location : Location) :
    Except Error Resource → Verdict
  | .error e =>
    match e with
    | .watch _ _ _ => .goOn ⟨.warn, e.message ++ ", still waiting"⟩
    | e => .decided (.error e)
  | .ok object =>
    match object.readiness with
    | .ready => .decided (.ok object)
    | .failed reason => .decided (.error (.waitFailed type location reason))
    | .pending => .goOn ⟨.debug, type.name ++ " " ++ location.text ++ " is not ready yet"⟩

variable {σ : Type}

/-- The outcome of a wait that is given up. -/
def Patience.givenUp (p : Patience) (type : ResourceType) (location : Location) (store : σ) :
    WaitOutcome σ :=
  { result := .error (p.giveUp type location), store, ended := p.limit }

/-- Follows occurrences from the instant `now` on. -/
def follow (patience : Patience) (type : ResourceType) (location : Location) (ending : Option Nat) :
    Nat → List (Nat × Occurrence σ) → σ → WaitOutcome σ
  | now, [], store =>
    match ending with
    | some delay =>
      if now + delay ≤ patience.limit then
        { result := .error (.watchClosed type location), store, ended := now + delay }
      else patience.givenUp type location store
    | none => patience.givenUp type location store
  | now, (delay, occurrence) :: steps, store =>
    if now + delay ≤ patience.limit then
      match occurrence with
      | .effect change => follow patience type location ending (now + delay) steps (change store)
      | .report result =>
        match Verdict.ofReport type location result with
        | .decided result => { result, store, ended := now + delay }
        | .goOn entry =>
          let outcome := follow patience type location ending (now + delay) steps store
          { outcome with logs := entry :: outcome.logs }
    else patience.givenUp type location store

/-- Follows a timeline from its start. -/
def Timeline.await (line : Timeline σ) (patience : Patience) (type : ResourceType)
    (location : Location) (store : σ) : WaitOutcome σ :=
  follow patience type location line.ending 0 line.steps store

end BuilderControl
