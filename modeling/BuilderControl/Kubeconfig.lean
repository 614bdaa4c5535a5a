import BuilderControl.Files
import BuilderControl.Resource.Schemas
import BuilderControl.Schema.Decode
import BuilderControl.Yaml.Value

/-! # Kubeconfigs

A kubeconfig names clusters, users and contexts, and says which context is the current one; a context
is a cluster with a namespace and a user.  Several documents count as one, in which what comes first
wins.  Credentials of users are passed over. -/

namespace BuilderControl

/-- Documents of kubeconfig files in normal form, those that win first. -/
structure Kubeconfig where
  documents : List Json := []
deriving DecidableEq, Inhabited

namespace Kubeconfig

/-! ### Reading -/

open Schemas in
/-- Named entries of a kubeconfig. -/
def entriesSchema (content : String) (fields : List (FieldInfo × Schema)) : Schema :=
  .list (.record { title := "struct Entry", unique := true }
    [required "name" .text,
     optional content (.record { title := "struct EntryContent", unique := true } fields [])] [])

open Schemas in
/-- What is read of a document. -/
def schema : Schema :=
  .record { title := "struct Kubeconfig", unique := true }
    [optional "kind" .text, optional "apiVersion" .text, optional "current-context" .text,
     lenient "clusters" (.arr []) (entriesSchema "cluster" [optional "server" .text]),
     lenient "contexts" (.arr []) (entriesSchema "context"
       [required "cluster" .text, optional "namespace" .text, optional "user" .text]),
     lenient "users" (.arr []) (entriesSchema "user" [])] []

/-- Reads the documents of a text. -/
def parse (text : String) : Option Kubeconfig := do
  let stream ← (Yaml.Stream.ofText text).toOption
  let documents ← stream.documents.mapM fun root => do
    let document ← ((Yaml.source stream.anchors).whole ⟨root, none⟩).toOption
    (schema.decode .memory document).toOption
  return ⟨documents⟩

/-- The files that make up the kubeconfig: those listed, or else the one in the home directory. -/
def paths (home : String) (listed : Option String) : List String :=
  match ((listed.getD "").splitOn ":").filter (· ≠ "") with
  | [] => [home ++ "/.kube/config"]
  | paths => paths

/-- Reads a kubeconfig; each of its files has to be there. -/
def load (files : Files) (paths : List String) : Option Kubeconfig := do
  let parsed ← paths.mapM fun path => (files.readText path).toOption.bind parse
  return ⟨parsed.flatMap documents⟩

/-! ### Looking things up -/

/-- The text of a key, in the first document that has it. -/
def text? (k : Kubeconfig) (key : String) : Option String :=
  k.documents.findSome? fun document => (document.get? key).bind Json.text?

/-- The entries of a list, in all documents. -/
def entries (k : Kubeconfig) (list : String) : List Json :=
  k.documents.flatMap fun document => match document.get? list with
    | some (.arr entries) => entries
    | _ => []

/-- The content of the first entry of a name. -/
def entry? (k : Kubeconfig) (list content name : String) : Option Json :=
  ((k.entries list).find? fun e => e.get? "name" = some (.str name)).bind (·.get? content)

/-- Whether all documents that have a key agree on its text. -/
def agreesOn (k : Kubeconfig) (key : String) : Bool :=
  (k.documents.filterMap (·.get? key)).all fun value => value.text? = k.text? key

/-- A cluster to talk to. -/
structure Target where
  server : String
  /-- Namespace of requests that state none. -/
  ns : String
deriving DecidableEq, Inhabited

/-- Whether a text can be the address of a server. -/
def isAddress (text : String) : Bool :=
  !text.isEmpty && text.toUTF8.toList.all fun b => 0x21 ≤ b && b ≤ 0x7e

/-- The cluster of the current context. -/
def target (k : Kubeconfig) : Option Target := do
  guard (k.agreesOn "kind" && k.agreesOn "apiVersion")
  let context ← k.entry? "contexts" "context" (← k.text? "current-context")
  let cluster ← k.entry? "clusters" "cluster" (← (context.get? "cluster").bind Json.text?)
  if let some user := (context.get? "user").bind Json.text? then
    let _ ← k.entry? "users" "user" user
  let server ← (cluster.get? "server").bind Json.text?
  guard (isAddress server)
  return ⟨server, ((context.get? "namespace").bind Json.text?).getD "default"⟩

end Kubeconfig

end BuilderControl
