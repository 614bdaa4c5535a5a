import BuilderControl.Resource.Schemas
import BuilderControl.Schema.Decode

/-! # Objects of the cluster

An object is a document in the normal form of its type's schema, so writing it is no more than
showing that document, and its fields are looked up in it. -/

namespace BuilderControl

/-- An object, of a known type or read without one. -/
structure Resource where
  type : Option ResourceType
  document : Json
deriving DecidableEq, Inhabited

/-- How far the server has got with an object. -/
inductive Readiness where
  | pending
  | ready
  | failed (message : String)
deriving DecidableEq, Inhabited

def Readiness.text : Readiness → String
  | .pending => "not ready"
  | .ready => "ready"
  | .failed message => "failed: " ++ message

namespace Resource

/-- The schema of a type, or that of objects without one. -/
def schemaOf : Option ResourceType → Schema
  | some t => t.schema
  | none => Schemas.untyped

/-- Reads an object of a type. -/
def read {ν : Type} (src : Source ν) (type : Option ResourceType) (v : ν) :
    Except DecodeError Resource :=
  ((schemaOf type).decode src v).map (⟨type, ·⟩)

/-- Reads an object from a document. -/
def ofJson (type : Option ResourceType) (j : Json) : Except DecodeError Resource :=
  read .memory type j

def metadata (r : Resource) : Json := Json.ofOption (r.document.get? "metadata")

/-- The name in the metadata, empty if there is none. -/
def name (r : Resource) : String := ((r.metadata.get? "name").bind Json.text?).getD ""

def generation? (r : Resource) : Option Int := (r.metadata.get? "generation").bind Json.integer?

/-- The identity that the object itself states, which may be empty.  Objects of core types always
have the one of their type. -/
def identity (r : Resource) : Identity :=
  match r.type with
  | some t => if t.isCore then t.identity else stated
  | none => stated
where
  stated : Identity :=
    match r.document.get? "apiVersion", r.document.get? "kind" with
    | some (.str version), some (.str kind) => ⟨version, kind⟩
    | _, _ => {}

/-- The condition named `Ready`, if the status has one. -/
def readyCondition (status : Json) : Option Json :=
  match status.get? "conditions" with
  | some (.arr conditions) => conditions.find? fun c => c.get? "type" = some (.str "Ready")
  | _ => none

/-- Readiness by the `Ready` condition.  Conditions describe an older spec until the server has
observed the object's generation. -/
def readiness (r : Resource) : Readiness :=
  match r.document.get? "status" with
  | none => .pending
  | some status =>
    let stale : Bool := match r.generation?, (status.get? "observedGeneration").bind Json.integer? with
      | some generation, some observed => observed < generation
      | _, _ => false
    if stale then .pending
    else match readyCondition status with
      | none => .pending
      | some c =>
        if c.get? "status" = some (.str "True") then .ready
        else if c.get? "status" = some (.str "False") then
          .failed (((c.get? "message").bind Json.text?).getD
            (((c.get? "reason").bind Json.text?).getD "Ready condition is False"))
        else .pending

end Resource

end BuilderControl
