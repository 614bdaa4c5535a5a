import BuilderControl.Output.Router
import BuilderControl.Wait

/-! # Steps that commands share

An action changes a world, which is a store, the router for output, and a log; it ends with a value
or is halted.  `create`, `patch`, `save`, `delete` and `show` are the actions behind every command. -/

namespace BuilderControl

/-- Why an action did not end with a value. -/
inductive Halt where
  | failed (error : Error)
  /-- A request was never answered. -/
  | hung
deriving DecidableEq, Inhabited

structure World (σ : Type) where
  store : σ
  router : Router
  logs : List LogEntry := []
deriving Inhabited

abbrev Action (σ α : Type) := ExceptT Halt (StateM (World σ)) α

/-- What stays the same during an invocation. -/
structure Settings where
  mode : Mode := {}
  patience : Patience := {}
  differ : Differ := .standard
deriving Inhabited

namespace Action

variable {σ α : Type}

def run (action : Action σ α) (world : World σ) : Except Halt α × World σ :=
  StateT.run (ExceptT.run action) world

def fail (e : Error) : Action σ α := throw (.failed e)

def log (level : Level) (text : String) : Action σ Unit :=
  modify fun w => { w with logs := w.logs ++ [⟨level, text⟩] }

def ofExcept (result : Except Error α) : Action σ α :=
  match result with
  | .ok a => pure a
  | .error e => fail e

/-- Makes a request to the store. -/
def request (call : σ → Answer σ α) : Action σ α := do
  let w ← get
  let answer := call w.store
  set { w with store := answer.store, logs := w.logs ++ answer.logs }
  match answer.reply with
  | .done result => ofExcept result
  | .never => throw .hung

/-- Writes to the router. -/
def emit (write : Router → Except Error Unit × Router) : Action σ Unit := do
  let w ← get
  let (result, router) := write w.router
  set { w with router := router }
  ofExcept result

end Action

/-- What a comparison logs: a warning if there was no object, and the places that change. -/
def Differ.Outcome.report (o : Differ.Outcome) : List LogEntry :=
  (match o with
    | .difference _ => []
    | .replacement _ => [⟨.warn, "patched object is not a map, replacing everything"⟩]) ++
  o.patch.changedPaths.map fun p => ⟨.trace, "changed " ++ p.text⟩

namespace Engine

variable {σ : Type} [Store σ]

open BuilderControl.Action

/-- Waits until the object is ready, if the mode says so. -/
def converge (s : Settings) (type : ResourceType) (ns : Option String) (object : Resource) :
    Action σ Resource := do
  if !s.mode.shouldWait then return object
  let location : Location := ⟨object.name, ns⟩
  let described := type.name ++ " \"" ++ object.name ++ "\""
  log .debug ("waiting up to " ++ s.patience.timeout.text ++ " for " ++ described)
  emit (·.emitStatus ("Waiting for " ++ described ++ " to become ready..."))
  let line ← request (Store.watch type ns object.name)
  let w ← get
  let outcome := line.await s.patience type location w.store
  set { w with store := outcome.store, logs := w.logs ++ outcome.logs }
  ofExcept outcome.result

/-- Creates an object. -/
def create (s : Settings) (type : ResourceType) (ns : Option String) (object : Resource) :
    Action σ Unit := do
  let created ← if s.mode.dryRun then pure object else request (Store.create type ns object)
  let created ← converge s type ns created
  emit (·.emitObjects [created])
  emit (·.emitResult ("\"" ++ object.name ++ "\" created"))

/-- Submits the difference between two versions of an object, if there is any. -/
def patch (s : Settings) (type : ResourceType) (ns : Option String)
    (observed desired : Resource) : Action σ Unit := do
  let outcome := s.differ.compare observed.document desired.document
  modify fun w => { w with logs := w.logs ++ outcome.report }
  let patch := outcome.patch
  if patch.isEmpty then
    emit (·.emitObjects [observed])
    emit (·.emitResult "nothing to patch")
  else
    log .debug ("patch for " ++ type.name ++ " \"" ++ observed.name ++ "\": " ++ patch.toJson.compact)
    let patched ←
      if s.mode.dryRun then pure desired
      else request (Store.patch type ns observed.name patch)
    let patched ← converge s type ns patched
    emit (·.emitObjects [patched])
    emit (·.emitResult ("\"" ++ observed.name ++ "\" patched"))

/-- Patches an object if it exists, and creates it otherwise. -/
def save (s : Settings) (type : ResourceType) (ns : Option String) (name : String)
    (update : Resource → Resource) (make : Except Error Resource) : Action σ Unit := do
  let found ← tryCatch (some <$> request (Store.get type ns name)) fun halt =>
    match halt with
    | .failed e => if e.isNotFound then pure none else throw halt
    | .hung => throw halt
  match found with
  | some observed => patch s type ns observed (update observed)
  | none =>
    log .debug (type.name ++ " \"" ++ name ++ "\" not found, creating")
    let object ← ofExcept make
    create s type ns object

/-- Deletes an object. -/
def delete (s : Settings) (type : ResourceType) (ns : Option String) (name : String) :
    Action σ Unit := do
  if !s.mode.dryRun then request (Store.delete type ns name)
  emit (·.emitResult ("\"" ++ name ++ "\" deleted"))

/-- Prints an object, or says how it is. -/
def «show» (s : Settings) (type : ResourceType) (ns : Option String) (name : String)
    (describe : Resource → String) : Action σ Unit := do
  let object ← request (Store.get type ns name)
  if s.mode.outputRequested then emit (·.emitObjects [object])
  else emit (·.emitLine (type.name ++ " \"" ++ name ++ "\" " ++ describe object))

end Engine

end BuilderControl
