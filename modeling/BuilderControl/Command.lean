import BuilderControl.Builder
import BuilderControl.Command.Tree
import BuilderControl.Engine

/-! # Commands

A command is what the arguments of an invocation ask for.  Files that it names are read before the
store is asked anything. -/

namespace BuilderControl

namespace Command

/-- Changes as they are asked for; an empty value counts as none. -/
structure ChangeRequest where
  tag : Option String := none
  stack : Option String := none
  store : Option String := none
  /-- Path of an order file. -/
  order : Option String := none
deriving DecidableEq, Inhabited

/-- Reads the changes that are asked for. -/
def ChangeRequest.read (r : ChangeRequest) (files : Files) : Except Error Builder.Changes := do
  let given (value : Option String) : Option String := value.filter (· ≠ "")
  let order ← (given r.order).mapM (Order.ofFile files)
  return ⟨given r.tag, given r.stack, given r.store, order⟩

end Command

inductive Command where
  | create (account : Builder.Account) (ns : Option String) (name tag stack store order : String)
  | patch (type : ResourceType) (ns : Option String) (name : String)
      (changes : Command.ChangeRequest)
  | save (account : Builder.Account) (ns : Option String) (name : String)
      (changes : Command.ChangeRequest)
  | delete (type : ResourceType) (ns : Option String) (name : String)
  | get (type : ResourceType) (ns : Option String) (name : String)
deriving DecidableEq, Inhabited

namespace Command

open CommandLine

/-! ### Commands from matches -/

/-- The text of an argument, if it has one. -/
def text? (found : Matches) (id : String) : Option String :=
  match (found.find? id).bind (·.values.head?) with
  | some (.text value) => some value
  | _ => none

def text (found : Matches) (id : String) : String := (text? found id).getD ""

def changes (found : Matches) : ChangeRequest :=
  ⟨text? found "tag", text? found "stack", text? found "store", text? found "order"⟩

/-- The account for builders of a type. -/
def account (found : Matches) (type : ResourceType) : Builder.Account :=
  if type = .clusterBuilder then
    .elsewhere (text found "service_account_name") (text found "service_account_namespace")
  else .here (text found "service_account")

/-- A command that manages builders of a type. -/
def ofBuilderVerb (type : ResourceType) (verb : String) (found : Matches) : Option Command :=
  let ns := text? found "namespace"
  let name := text found "name"
  match verb with
  | "create" => some (.create (account found type) ns name (text found "tag") (text found "stack")
      (text found "store") (text found "order"))
  | "patch" => some (.patch type ns name (changes found))
  | "save" => some (.save (account found type) ns name (changes found))
  | "delete" => some (.delete type ns name)
  | _ => none

/-- The command that a parsed command line asks for. -/
def ofParsed (parsed : Parsed) : Option Command :=
  match parsed.route with
  | [_, "clusterbuilder", verb] => ofBuilderVerb .clusterBuilder verb parsed.found
  | [_, "builder", verb] => ofBuilderVerb .builder verb parsed.found
  | [_, "get"] => match (parsed.found.find? "kind").bind (·.values.head?) with
    | some (.resourceType type) =>
      some (.get type (text? parsed.found "namespace") (text parsed.found "name"))
    | _ => none
  | _ => none

/-! ### Running -/

/-- The order file that a command names. -/
def order? : Command → Option String
  | .create _ _ _ _ _ _ order => some order
  | .patch _ _ _ request | .save _ _ _ request => request.order
  | .delete .. | .get .. => none

/-- How an object is described. -/
def describe (object : Resource) : String :=
  if object.type.any ResourceType.isConverging then object.readiness.text else "exists"

variable {σ : Type} [Store σ]

open BuilderControl.Action in
/-- Runs a command. -/
def run (command : Command) (files : Files) (s : Settings) : Action σ Unit := do
  match command with
  | .create account ns name tag stack store order =>
    if tag.isEmpty then fail (.invalid .emptyTag)
    let order ← ofExcept (Order.ofFile files order)
    Engine.create s account.type ns (Builder.new account ns name ⟨tag, stack, store, order⟩)
  | .patch type ns name request' =>
    let changes ← ofExcept (request'.read files)
    let observed ← request (Store.get type ns name)
    Engine.patch s type ns observed (changes.apply observed)
  | .save account ns name request' =>
    let changes ← ofExcept (request'.read files)
    Engine.save s account.type ns name changes.apply
      ((changes.content.mapError Error.invalid).map (Builder.new account ns name))
  | .delete type ns name => Engine.delete s type ns name
  | .get type ns name =>
    let ns := if type.isClusterScoped then none else ns
    Engine.show s type ns name describe

end Command

end BuilderControl
