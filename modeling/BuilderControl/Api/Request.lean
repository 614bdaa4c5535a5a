import BuilderControl.Api.Failure
import BuilderControl.Patch
import BuilderControl.Resource.Type

/-! # Requests to the API server

A request names a collection of objects or an object in it by a URI.  Names are put into URIs as they
are, so a name may make a URI that can not be sent; what comes after a `#` is not sent. -/

namespace BuilderControl.Api

inductive Method where
  | get | post | patch | delete
deriving DecidableEq, Inhabited

def Method.name : Method → String
  | get => "GET"
  | post => "POST"
  | patch => "PATCH"
  | delete => "DELETE"

structure Request where
  method : Method
  uri : String
  accept : Option String := none
  contentType : Option String := none
  body : Option Json := none
deriving DecidableEq, Inhabited

/-- Whether a request selects objects of a collection. -/
def Request.selects (r : Request) : Bool := 1 < (r.uri.splitOn "fieldSelector=").length

/-! ### Addresses -/

/-- All objects of a type, in a namespace if the type has them. -/
structure Collection where
  type : ResourceType
  ns : Option String
deriving DecidableEq, Inhabited

def Collection.path (c : Collection) : String :=
  (if c.type.isCore then "/api/" else "/apis/") ++ c.type.apiVersion
    ++ (c.ns.elim "" fun ns => "/namespaces/" ++ ns) ++ "/" ++ c.type.plural

/-- Length of a URI in bytes that can still be sent. -/
def uriLimit : Nat := 65534

/-- Bytes that a path can have: those that need no escape, quotes and braces, and all beyond ASCII. -/
def isPathByte (b : UInt8) : Bool :=
  b = 0x21 || (0x24 ≤ b && b ≤ 0x3b) || b = 0x3d || (0x40 ≤ b && b ≤ 0x5f) ||
    (0x61 ≤ b && b ≤ 0x7e) || 0x7f ≤ b || b = 0x22

/-- Bytes that a query can have. -/
def isQueryByte (b : UInt8) : Bool :=
  b = 0x21 || (0x24 ≤ b && b ≤ 0x3b) || b = 0x3d || 0x3f ≤ b

/-- The part of a URI that is sent. -/
def sendable (uri : String) : Except RequestFault String :=
  if uriLimit < uri.utf8ByteSize then .error .uriTooLong
  else
    let sent := uri.toList.takeWhile (· ≠ '#')
    let path := sent.takeWhile (· ≠ '?')
    let query := (sent.drop path.length).tail
    let bytes (cs : List Char) : List UInt8 := (String.ofList cs).toUTF8.toList
    if (bytes path).all isPathByte && (bytes query).all isQueryByte then .ok (String.ofList sent)
    else .error .badUri

/-- A byte as it is written in a query. -/
def queryByte (b : UInt8) : List Char :=
  let c := Char.ofNat b.toNat
  if c.isAlphanum || c ∈ ['*', '-', '.', '_'] then [c]
  else if c = ' ' then ['+']
  else
    let digit (n : Nat) : Char := "0123456789ABCDEF".toList.getD n '0'
    ['%', digit (b.toNat / 16), digit (b.toNat % 16)]

/-- The query of some pairs; each is separated from what stands before it, be it nothing. -/
def query (pairs : List (String × String)) : String :=
  let escaped (s : String) : String := String.ofList (s.toUTF8.toList.flatMap queryByte)
  "?" ++ String.join (pairs.map fun (key, value) => "&" ++ escaped key ++ "=" ++ escaped value)

/-! ### Requests -/

def jsonType : String := "application/json"

def mergePatchType : String := "application/merge-patch+json"

namespace Collection

/-- A request about an object, which has to have a name. -/
def about (c : Collection) (name suffix : String) (make : String → Request) :
    Except RequestFault Request :=
  if name.isEmpty then .error .emptyName
  else (sendable (c.path ++ "/" ++ name ++ suffix)).map make

def get (c : Collection) (name : String) : Except RequestFault Request :=
  c.about name "" fun uri => { method := .get, uri }

/-- Creates an object; `manager` is who owns the fields that are set. -/
def create (c : Collection) (manager : String) (object : Json) : Except RequestFault Request :=
  (sendable (c.path ++ query [("fieldManager", manager)])).map fun uri =>
    { method := .post, uri, contentType := some jsonType, body := some object }

def patch (c : Collection) (manager name : String) (patch : MergePatch) :
    Except RequestFault Request :=
  c.about name (query [("fieldManager", manager)]) fun uri =>
    { method := .patch, uri, accept := some jsonType, contentType := some mergePatchType
      body := some patch.toJson }

def delete (c : Collection) (name : String) : Except RequestFault Request :=
  c.about name (query []) fun uri =>
    { method := .delete, uri, contentType := some jsonType, body := some (.obj []) }

/-- Selects the object of a name. -/
def selector (name : String) : String × String := ("fieldSelector", "metadata.name=" ++ name)

/-- Lists the object of a name; `continue?` is where the page starts, unless it is the first. -/
def list (c : Collection) (name : String) (continue? : Option String) :
    Except RequestFault Request :=
  let page := continue?.elim [] fun token => [("continue", token)]
  (sendable (c.path ++ query ([selector name, ("limit", "500")] ++ page))).map fun uri =>
    { method := .get, uri }

/-- Watches the object of a name from a version on. -/
def watch (c : Collection) (name version : String) : Except RequestFault Request :=
  (sendable (c.path ++ query [("watch", "true"), ("timeoutSeconds", "290"), selector name,
    ("allowWatchBookmarks", "true"), ("resourceVersion", version)])).map fun uri =>
    { method := .get, uri }

end Collection

end BuilderControl.Api
