import BuilderControl.Store

/-! # A store in memory

Objects are documents under their type, namespace and name.  Every request is recorded, requests
can be made to fail, and what a watch reports is given beforehand. -/

namespace BuilderControl

structure StoreKey where
  type : ResourceType
  ns : String
  name : String
deriving DecidableEq, Inhabited

namespace StoreKey

/-- The texts by which keys are ordered. -/
def parts (k : StoreKey) : List String := [k.type.name, k.ns, k.name]

instance : LT StoreKey := ⟨fun a b => a.parts < b.parts⟩

instance : DecidableLT StoreKey := fun a b => inferInstanceAs (Decidable (a.parts < b.parts))

/-- The key of an object; without a namespace it is kept in the default one. -/
def ofLocation (type : ResourceType) (ns : Option String) (name : String) : StoreKey :=
  ⟨type, ns.getD "default", name⟩

end StoreKey

/-- A kind of request. -/
inductive CallKind where
  | get
  | create (body : Json)
  | patch (body : Json)
  | delete
  | watch
deriving DecidableEq, Inhabited

/-- A request as it was made. -/
structure Call where
  kind : CallKind
  type : ResourceType
  ns : Option String
  name : String
deriving DecidableEq, Inhabited

/-- A request that is to fail. -/
inductive FaultTarget where
  | operation (op : Operation)
  /-- Watches do not fail when they start. -/
  | watch
deriving DecidableEq, Inhabited

structure PlannedFault where
  target : FaultTarget
  response : Api.ErrorResponse
deriving DecidableEq, Inhabited

/-- What a watch reports. -/
inductive WatchEvent where
  | object (value : Json)
  | failure (response : Api.ErrorResponse)
  /-- Nothing more is reported. -/
  | hang
deriving DecidableEq, Inhabited

structure MemoryStore where
  objects : Entries StoreKey Json := []
  /-- Requests made so far. -/
  calls : List Call := []
  faults : List PlannedFault := []
  /-- What the next watch reports, each event with its delay; without events it reports nothing and
  does not end. -/
  events : Option (List (Nat × WatchEvent)) := none
deriving Inhabited

namespace MemoryStore

/-- Takes the first fault planned for a target. -/
def takeFault (target : FaultTarget) : List PlannedFault → Option Api.ErrorResponse × List PlannedFault
  | [] => (none, [])
  | f :: fs =>
    if f.target = target then (some f.response, fs)
    else
      let (found, rest) := takeFault target fs
      (found, f :: rest)

/-- Records a call and takes the fault planned for it. -/
def enter (s : MemoryStore) (kind : CallKind) (target : FaultTarget) (type : ResourceType)
    (ns : Option String) (name : String) : Option Api.ErrorResponse × MemoryStore :=
  let (fault, faults) := takeFault target s.faults
  (fault, { s with calls := s.calls ++ [⟨kind, type, ns, name⟩], faults := faults })

def refusal (code : Nat) (reason : String) (type : ResourceType) (name : String) (text : String) :
    Api.ErrorResponse :=
  { message := type.plural ++ " \"" ++ name ++ "\" " ++ text, reason := reason, code := code }

def notFound (type : ResourceType) (name : String) : Api.ErrorResponse :=
  refusal 404 "NotFound" type name "not found"

def alreadyExists (type : ResourceType) (name : String) : Api.ErrorResponse :=
  refusal 409 "AlreadyExists" type name "already exists"

/-- Reads a stored document as an object. -/
def readStored (type : ResourceType) (document : Json) : Except Error Resource :=
  (Resource.ofJson (some type) document).mapError Error.unreadable

/-- The document with `metadata.generation` set. -/
def withGeneration (document : Json) (generation : Int) : Json :=
  document.set "metadata"
    ((Json.ofOption (document.get? "metadata")).set "generation" (.num (.int generation)))

/-- The generation of a stored document, zero if it has none. -/
def generationOf (document : Json) : Int :=
  (((document.get? "metadata").bind (·.get? "generation")).bind Json.integer?).getD 0

/-- The document that is stored for a new object. -/
def initial (type : ResourceType) (object : Resource) : Json :=
  let identified := object.document.set "apiVersion" (.str type.apiVersion)
  withGeneration (identified.set "kind" (.str type.name)) 1

/-- The document that is stored after a patch. -/
def patched (patch : MergePatch) (document : Json) : Json :=
  let next := patch.apply document
  withGeneration next (generationOf next + 1)

/-- The answer to a request that a planned fault may make fail. -/
def answer {α : Type} (op : Operation) (type : ResourceType) (ns : Option String)
    (name : String) (entered : Option Api.ErrorResponse × MemoryStore)
    (act : MemoryStore → Except Api.ErrorResponse (Except Error α × MemoryStore)) :
    Answer MemoryStore α :=
  let refused (response : Api.ErrorResponse) : Error :=
    .remote op type ⟨name, ns⟩ (.refused response)
  match entered with
  | (some response, s) => { reply := .done (.error (refused response)), store := s }
  | (none, s) =>
    match act s with
    | .error response => { reply := .done (.error (refused response)), store := s }
    | .ok (result, s) => { reply := .done result, store := s }

/-- What a watch reports of one event. -/
def report (type : ResourceType) (ns : Option String) (name : String) :
    WatchEvent → Option (Except Error Resource)
  | .object value => some (readStored type value)
  | .failure response =>
    some (.error (.watch type ⟨name, ns⟩ (.streamFailed (.refused response))))
  | .hang => none

/-- The timeline of a watch, up to the event after which nothing is reported. -/
def timeline (type : ResourceType) (ns : Option String) (name : String) :
    List (Nat × WatchEvent) → Timeline MemoryStore
  | [] => ⟨[], some 0⟩
  | (delay, event) :: events =>
    match report type ns name event with
    | none => ⟨[], none⟩
    | some result =>
      let rest := timeline type ns name events
      ⟨(delay, .report result) :: rest.steps, rest.ending⟩

instance : Store MemoryStore where
  get type ns name s :=
    answer .get type ns name (s.enter .get (.operation .get) type ns name) fun s =>
      match Entries.get? s.objects (.ofLocation type ns name) with
      | none => .error (notFound type name)
      | some document => .ok (readStored type document, s)
  create type ns object s :=
    let name := object.name
    let key := StoreKey.ofLocation type ns name
    answer .create type ns name
      (s.enter (.create object.document) (.operation .create) type ns name) fun s =>
      if s.objects.contains key then .error (alreadyExists type name)
      else
        let document := initial type object
        .ok (readStored type document, { s with objects := s.objects.insert key document })
  patch type ns name patch s :=
    let key := StoreKey.ofLocation type ns name
    answer .patch type ns name
      (s.enter (.patch patch.toJson) (.operation .patch) type ns name) fun s =>
      match Entries.get? s.objects key with
      | none => .error (notFound type name)
      | some document =>
        let next := patched patch document
        .ok (readStored type next, { s with objects := s.objects.insert key next })
  delete type ns name s :=
    let key := StoreKey.ofLocation type ns name
    answer .delete type ns name (s.enter .delete (.operation .delete) type ns name)
      fun s =>
      if s.objects.contains key then .ok (.ok (), { s with objects := s.objects.erase key })
      else .error (notFound type name)
  watch type ns name s :=
    let (_, s) := s.enter .watch .watch type ns name
    let line := match s.events with
      | none => ⟨[], none⟩
      | some events => timeline type ns name events
    { reply := .done (.ok line), store := { s with events := none } }

end MemoryStore

end BuilderControl
