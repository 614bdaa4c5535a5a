import BuilderControl.Entries

/-! # Resource types and identities

A resource type is one that the program has a schema for.  An identity is what an object says about
itself: the version of the API it belongs to, and its kind. -/

namespace BuilderControl

inductive ResourceType where
  | secret | serviceAccount | image | builder | clusterBuilder | clusterStack | clusterStore
deriving DecidableEq, Inhabited

namespace ResourceType

def all : List ResourceType :=
  [.secret, .serviceAccount, .image, .builder, .clusterBuilder, .clusterStack, .clusterStore]

def name : ResourceType → String
  | .secret => "Secret"
  | .serviceAccount => "ServiceAccount"
  | .image => "Image"
  | .builder => "Builder"
  | .clusterBuilder => "ClusterBuilder"
  | .clusterStack => "ClusterStack"
  | .clusterStore => "ClusterStore"

/-- Name of the collection of all objects of a type. -/
def plural : ResourceType → String
  | .secret => "secrets"
  | .serviceAccount => "serviceaccounts"
  | .image => "images"
  | .builder => "builders"
  | .clusterBuilder => "clusterbuilders"
  | .clusterStack => "clusterstacks"
  | .clusterStore => "clusterstores"

/-- Core types belong to no API group. -/
def isCore : ResourceType → Bool
  | .secret | .serviceAccount => true
  | _ => false

/-- Types of the whole cluster rather than of a namespace. -/
def isClusterScoped : ResourceType → Bool
  | .clusterBuilder | .clusterStack | .clusterStore => true
  | _ => false

/-- Types whose objects report when they are ready. -/
def isConverging (t : ResourceType) : Bool := !t.isCore

def apiVersion (t : ResourceType) : String :=
  if t.isCore then "v1" else "build.pivotal.io/v1alpha1"

end ResourceType

/-- What an object says about itself. -/
structure Identity where
  apiVersion : String := ""
  kind : String := ""
deriving DecidableEq, Inhabited

namespace Identity

/-- The version without its group; core objects carry a bare version. -/
def version (i : Identity) : String :=
  let afterGroup := i.apiVersion.toList.dropWhile (· ≠ '/')
  if afterGroup.isEmpty then i.apiVersion else String.ofList afterGroup.tail

/-- Whether the identity is of no use. -/
def isEmpty (i : Identity) : Bool := i.version = "" || i.kind = ""

def text (i : Identity) : String := i.apiVersion ++ " " ++ i.kind

end Identity

/-- The identity that objects of a type have. -/
def ResourceType.identity (t : ResourceType) : Identity := ⟨t.apiVersion, t.name⟩

/-- Where an object is kept. -/
structure Location where
  name : String
  ns : Option String := none
deriving DecidableEq, Inhabited

def Location.text (l : Location) : String :=
  "\"" ++ l.name ++ "\"" ++ (match l.ns with
    | some ns => " in " ++ ns
    | none => "")

end BuilderControl
