import BuilderControl.Error
import BuilderControl.Log
import BuilderControl.Patch
import BuilderControl.Resource

/-! # Stores of objects

A store answers requests about objects and can be asked to report an object's versions over time.
What a watch will report is a `Timeline`; occurrences that only change the store's own state are
part of it, so the store afterwards depends on how long it was followed. -/

namespace BuilderControl

/-- The answer to a request; a request may never be answered. -/
inductive Reply (α : Type) where
  | done (result : Except Error α)
  | never

/-- A reply with what was logged, and the store afterwards. -/
structure Answer (σ α : Type) where
  reply : Reply α
  store : σ
  logs : List LogEntry := []

/-- What can happen while an object is followed. -/
inductive Occurrence (σ : Type) where
  /-- A version of the object, or a failure to get one. -/
  | report (result : Except Error Resource)
  /-- A change of the store's own state. -/
  | effect (change : σ → σ)

/-- Occurrences in order, each with the milliseconds since the one before it. -/
structure Timeline (σ : Type) where
  steps : List (Nat × Occurrence σ)
  /-- Milliseconds from the last step to the end of the watch, which may never come. -/
  ending : Option Nat

/-- The requests that commands make.  `ns` is what the request states, which may be
nothing. -/
class Store (σ : Type) where
  get (type : ResourceType) (ns : Option String) (name : String) (store : σ) :
    Answer σ Resource
  create (type : ResourceType) (ns : Option String) (object : Resource) (store : σ) :
    Answer σ Resource
  patch (type : ResourceType) (ns : Option String) (name : String) (patch : MergePatch)
    (store : σ) : Answer σ Resource
  delete (type : ResourceType) (ns : Option String) (name : String) (store : σ) :
    Answer σ Unit
  watch (type : ResourceType) (ns : Option String) (name : String) (store : σ) :
    Answer σ (Timeline σ)

end BuilderControl
