import BuilderControl.Command

/-! # Invocations of the program

Arguments are parsed, flags give the mode, and a router is set up for it; only then is the command
run. -/

namespace BuilderControl

structure Invocation where
  command : Command
  mode : Mode
  timeout : Duration
deriving DecidableEq, Inhabited

/-- Why there is no invocation. -/
inductive InvocationError where
  | usage (error : CommandLine.UsageError)
  | invalid (request : InvalidRequest)
deriving DecidableEq, Inhabited

namespace Invocation

/-- How long commands wait that do not say it. -/
def defaultTimeout : Nat := 600

/-- The seconds that a command is ready to wait. -/
def timeoutOf (found : CommandLine.Matches) : Nat :=
  match (found.find? "wait_timeout").bind (·.values.head?) with
  | some (.number seconds) => seconds
  | _ => defaultTimeout

/-- The invocation that some arguments ask for. -/
def ofArgs (args : List String) : Except InvocationError Invocation := do
  let parsed ← (CommandLine.parse Command.program Command.version args).mapError .usage
  let mode ← parsed.found.mode.mapError .invalid
  match Command.ofParsed parsed with
  | some command => return ⟨command, mode, .ofSeconds (timeoutOf parsed.found)⟩
  | none => throw (.usage .unknownCommand)

end Invocation

/-- What an invocation has left behind. -/
structure Ending (σ : Type) where
  /-- Why it failed, if it did. -/
  halt : Option Halt
  store : σ
  out : Sink
  err : Sink
  logs : List LogEntry := []

variable {σ : Type}

/-- Runs an action in a mode; nothing is run if the mode asks for an unknown format. -/
def Action.perform (action : Action σ Unit) (mode : Mode) (out err : Sink) (store : σ) : Ending σ :=
  match Router.ofMode mode .standard out err with
  | .error request => ⟨some (.failed (.invalid request)), store, out, err, []⟩
  | .ok router =>
    let (result, world) := action.run { store, router }
    let halt := match result with
      | .ok () => none
      | .error halt => some halt
    ⟨halt, world.store, world.router.out, world.router.err, world.logs⟩

/-- Runs an invocation. -/
def Invocation.perform [Store σ] (i : Invocation) (files : Files) (interrupt : Option Nat)
    (out err : Sink) (store : σ) : Ending σ :=
  let settings : Settings := { mode := i.mode, patience := ⟨i.timeout, interrupt⟩ }
  (i.command.run files settings).perform i.mode out err store

end BuilderControl
