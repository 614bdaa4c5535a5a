import BuilderControl.Invocation
import BuilderControl.Proofs.Actions
import Mathlib.Logic.Function.Basic
import Mathlib.Logic.Relation

/-!
# Clients that share a store

A client runs an invocation, but what it hears from the store is not up to the invocation: the
store serves one request at a time, of whichever client, and every request sees what the requests
served before it have left.  What a client asks next follows from what it has heard so far, by
running its invocation on a transcript of that.

## Key results

- `Client.next?`: the request that a client makes after what it has heard
- `Scene.Step`: the store serves one request of one client
-/

namespace BuilderControl

/-! ## Requests and responses -/

/-- A request as it reaches a store. -/
inductive Request where
  | get (type : ResourceType) (ns : Option String) (name : String)
  | create (type : ResourceType) (ns : Option String) (object : Resource)
  | patch (type : ResourceType) (ns : Option String) (name : String) (patch : MergePatch)
  | delete (type : ResourceType) (ns : Option String) (name : String)
  | watch (type : ResourceType) (ns : Option String) (name : String)
deriving DecidableEq, Inhabited

/-- What a watch reports, each report with the milliseconds since the one before it. -/
structure Reports where
  steps : List (Nat × Except Error Resource)
  ending : Option Nat

/-- What a client hears after a request. -/
inductive Response where
  | object (reply : Reply Resource)
  | outcome (reply : Reply Unit)
  | reports (reply : Reply Reports)

namespace Reply

variable {α β : Type}

/-- A reply with its value changed. -/
def map (f : α → β) : Reply α → Reply β
  | done result => .done (result.map f)
  | never => .never

/-- What an action ends with that waits for the reply. -/
def result : Reply α → Except Halt α
  | done result => result.mapError .failed
  | never => .error .hung

end Reply

namespace Reports

/-- The reports of a timeline. -/
def ofTimeline {σ : Type} (line : Timeline σ) : Reports where
  steps := line.steps.filterMap fun step => match step.2 with
    | .report result => some (step.1, result)
    | .effect _ => none
  ending := line.ending

/-- A timeline on which nothing else happens. -/
def timeline {σ : Type} (r : Reports) : Timeline σ where
  steps := r.steps.map fun step => (step.1, .report step.2)
  ending := r.ending

/-- On the timeline of some reports, there is nothing but these. -/
theorem report_of_mem_timeline {σ : Type} (r : Reports) :
    ∀ step ∈ (r.timeline : Timeline σ).steps, ∃ result, step.2 = .report result := by
  intro step hstep
  obtain ⟨⟨_, result⟩, -, rfl⟩ := List.mem_map.1 hstep
  exact ⟨result, rfl⟩

end Reports

namespace Response

/-! What a response is to a request of each kind; a response of another kind is none. -/

/-- The object that was asked for. -/
def toObject : Response → Reply Resource
  | object reply => reply
  | _ => .never

/-- The outcome of a deletion. -/
def toOutcome : Response → Reply Unit
  | outcome reply => reply
  | _ => .never

/-- The reports of a watch. -/
def toReports : Response → Reply Reports
  | reports reply => reply
  | _ => .never

end Response

/-- Serves a request. -/
def MemoryStore.serve (s : MemoryStore) : Request → Response × MemoryStore
  | .get type ns name =>
    let answer := Store.get type ns name s
    (.object answer.reply, answer.store)
  | .create type ns object =>
    let answer := Store.create type ns object s
    (.object answer.reply, answer.store)
  | .patch type ns name patch =>
    let answer := Store.patch type ns name patch s
    (.object answer.reply, answer.store)
  | .delete type ns name =>
    let answer := Store.delete type ns name s
    (.outcome answer.reply, answer.store)
  | .watch type ns name =>
    let answer := Store.watch type ns name s
    (.reports (answer.reply.map Reports.ofTimeline), answer.store)

/-! ## Transcripts -/

/-- A client's side of its exchange with a store. -/
structure Transcript where
  /-- What the client has yet to hear. -/
  ahead : List Response
  /-- Requests made so far. -/
  asked : List Request := []

namespace Transcript

/-- Makes a request and hears the next response; the request is never answered if there is none. -/
def ask {α : Type} (t : Transcript) (request : Request) (hear : Response → Reply α) :
    Answer Transcript α where
  reply := (t.ahead.head?.map hear).getD .never
  store := ⟨t.ahead.tail, t.asked ++ [request]⟩

instance : Store Transcript where
  get type ns name t := t.ask (.get type ns name) Response.toObject
  create type ns object t := t.ask (.create type ns object) Response.toObject
  patch type ns name patch t := t.ask (.patch type ns name patch) Response.toObject
  delete type ns name t := t.ask (.delete type ns name) Response.toOutcome
  watch type ns name t := t.ask (.watch type ns name) fun response =>
    response.toReports.map Reports.timeline

/-- At most a watch is asked for. -/
def MayWatch (t t' : Transcript) : Prop :=
  t'.asked = t.asked ∨ ∃ type ns name, t'.asked = t.asked ++ [.watch type ns name]

/-- Nothing has to be asked for. -/
theorem MayWatch.refl (t : Transcript) : t.MayWatch t := Or.inl rfl

end Transcript

/-- Waiting asks for a watch at most. -/
theorem Engine.along_converge_transcript (s : Settings) (type : ResourceType)
    (ns : Option String) (object : Resource) :
    Action.Along Transcript.MayWatch (converge s type ns object) := by
  refine along_converge_of_reports (R := Transcript.MayWatch)
    (fun t => Or.inr ⟨type, ns, object.name, rfl⟩) (fun t line hline => ?_)
    Transcript.MayWatch.refl s rfl
  -- A watch is answered by a response with reports, or never
  obtain ⟨_ | ⟨response, ahead⟩, asked⟩ := t
  · cases hline
  · match response, hline with
    | .reports (.done (.ok reports)), hline =>
      cases hline
      exact reports.report_of_mem_timeline

/-! ## Clients -/

/-- An invocation together with what it is run with. -/
structure Client where
  invocation : Invocation
  files : Files
  interrupt : Option Nat := none
  out : Sink := {}
  err : Sink := {}

namespace Client

/-- How the client's run has gone once it has heard some responses. -/
def hearing (c : Client) (heard : List Response) : Ending Transcript :=
  c.invocation.perform c.files c.interrupt c.out c.err ⟨heard, []⟩

/-- The request that the client makes next, if it makes one. -/
def next? (c : Client) (heard : List Response) : Option Request :=
  (c.hearing heard).store.asked[heard.length]?

end Client

/-! ## Scenes -/

/-- A store that is shared, and what each of its clients has heard. -/
structure Scene (n : Nat) where
  store : MemoryStore
  heard : Fin n → List Response := fun _ => []

namespace Scene

variable {n : Nat}

/-- Serves a request of one client. -/
def serve (s : Scene n) (i : Fin n) (request : Request) : Scene n where
  store := (s.store.serve request).2
  heard := Function.update s.heard i (s.heard i ++ [(s.store.serve request).1])

/-- A client that is served hears the response. -/
theorem heard_serve_self (s : Scene n) (i : Fin n) (request : Request) :
    (s.serve i request).heard i = s.heard i ++ [(s.store.serve request).1] :=
  Function.update_self ..

/-- No other client hears anything. -/
theorem heard_serve_of_ne (s : Scene n) {i j : Fin n} (h : j ≠ i) (request : Request) :
    (s.serve i request).heard j = s.heard j :=
  Function.update_of_ne h ..

variable (clients : Fin n → Client)

/-- One client makes its next request and is served at once. -/
inductive Step : Scene n → Scene n → Prop
  | serve (s : Scene n) (i : Fin n) {request : Request}
    (h : (clients i).next? (s.heard i) = some request) : Step s (s.serve i request)

/-- What can come of serving requests, in whatever order. -/
def Reaches : Scene n → Scene n → Prop := Relation.ReflTransGen (Step clients)

/-- No client makes a further request. -/
def IsDone (s : Scene n) : Prop := ∀ i, (clients i).next? (s.heard i) = none

end Scene

end BuilderControl
