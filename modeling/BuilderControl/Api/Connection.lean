import BuilderControl.Api.Event

/-! # Connections to an API server

A connection is known by what its server will answer: each request takes the next exchange.  Once
there are none left, a request that selects objects is never answered, and any other fails. -/

namespace BuilderControl.Api

/-- What becomes of a request. -/
inductive Exchange where
  | answered (response : Response)
  | failed (text : String)
deriving DecidableEq, Inhabited

structure Connection where
  /-- Namespace of requests that state none. -/
  defaultNs : String := "default"
  /-- Who owns the fields that are set. -/
  manager : String
  exchanges : List Exchange := []
  /-- Requests made so far. -/
  sent : List Request := []
deriving Inhabited

namespace Connection

/-- The collection that a request about objects of a type concerns. -/
def collection (c : Connection) (type : ResourceType) (ns : Option String) : Collection :=
  ⟨type, if type.isClusterScoped then none else some (ns.getD c.defaultNs)⟩

/-- The connection after a request. -/
def advance (c : Connection) (request : Request) : Connection :=
  { c with exchanges := c.exchanges.tail, sent := c.sent ++ [request] }

/-- What becomes of a request, if anything does. -/
def next (c : Connection) (request : Request) : Option Exchange :=
  match c.exchanges with
  | exchange :: _ => some exchange
  | [] => if request.selects then none else some (.failed "no more responses")

end Connection

end BuilderControl.Api
