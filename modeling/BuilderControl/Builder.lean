import BuilderControl.Order
import BuilderControl.Resource

/-! # Builders that commands make and change

Documents of builders are made in the normal form of their type, so they need no decoding. -/

namespace BuilderControl.Builder

/-- The service account that a builder uses. -/
inductive Account where
  /-- An account in the builder's own namespace. -/
  | here (name : String)
  /-- An account in a namespace that is stated. -/
  | elsewhere (name ns : String)
deriving DecidableEq, Inhabited

/-- What a builder is made of. -/
structure Content where
  tag : String
  stack : String
  store : String
  /-- Entries of the order, in normal form. -/
  order : List Json
deriving DecidableEq, Inhabited

/-- A reference to an object. -/
def reference (kind name : String) : Json := .object [("kind", .str kind), ("name", .str name)]

namespace Account

/-- The type of the builders that can use an account. -/
def type : Account → ResourceType
  | here _ => .builder
  | elsewhere _ _ => .clusterBuilder

/-- What a spec says about the account. -/
def members : Account → List (String × Json)
  | here name => if name.isEmpty then [] else [("serviceAccount", .str name)]
  | elsewhere name ns =>
    [("serviceAccountRef", (reference "ServiceAccount" name).set "namespace" (.str ns))]

end Account

/-- A new builder. -/
def new (account : Account) (ns : Option String) (name : String) (content : Content) : Resource where
  type := account.type
  document := .object
    [("metadata", .object
        (("name", .str name) :: (ns.map fun ns => ("namespace", Json.str ns)).toList)),
     ("spec", .object ([("tag", .str content.tag), ("stack", reference "ClusterStack" content.stack),
        ("store", reference "ClusterStore" content.store)] ++
       (if content.order.isEmpty then [] else [("order", .arr content.order)]) ++ account.members))]

/-- What is to be changed. -/
structure Changes where
  tag : Option String := none
  stack : Option String := none
  store : Option String := none
  order : Option (List Json) := none
deriving DecidableEq, Inhabited

namespace Changes

/-- The changed version of a builder. -/
def apply (c : Changes) (builder : Resource) : Resource :=
  let spec := Json.ofOption (builder.document.get? "spec")
  let rename (spec : Json) (key : String) : Option String → Json
    | none => spec
    | some name => spec.set key ((Json.ofOption (spec.get? key)).set "name" (.str name))
  let spec := c.tag.elim spec fun tag => spec.set "tag" (.str tag)
  let spec := rename (rename spec "stack" c.stack) "store" c.store
  let spec := c.order.elim spec fun order => spec.set "order" (.arr order)
  { builder with document := builder.document.set "spec" spec }

/-- The content of a builder that does not exist yet. -/
def content (c : Changes) : Except InvalidRequest Content := do
  let tag ← c.tag.elim (throw .tagMissing) pure
  let order ← c.order.elim (throw .orderMissing) pure
  return ⟨tag, c.stack.getD "default", c.store.getD "default", order⟩

end Changes

end BuilderControl.Builder
