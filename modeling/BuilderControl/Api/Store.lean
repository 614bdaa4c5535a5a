import BuilderControl.Api.Watcher

/-! # Stores on an API server -/

namespace BuilderControl.Api.Connection

/-- What is logged when a namespace is stated that does not matter. -/
def notes (type : ResourceType) (ns : Option String) : List LogEntry :=
  match ns, type.isClusterScoped with
  | some ns, true => [⟨.debug, type.name ++ " is cluster scoped, ignoring namespace " ++ ns⟩]
  | _, _ => []

/-- Makes a request and reads the text of its answer.  `details` is logged after what the request
is about. -/
def ask {α : Type} (c : Connection) (op : Operation) (type : ResourceType) (ns : Option String)
    (name details : String) (request : Except RequestFault Request)
    (read : String → Except Failure α) : Answer Connection α :=
  let fail (failure : Failure) : Error := .remote op type ⟨name, ns⟩ failure
  let logs := ⟨.trace, op.name ++ " " ++ type.name ++ " " ++ name ++ details⟩ :: notes type ns
  match request with
  | .error fault => { reply := .done (.error (fail (.notSent fault))), store := c, logs }
  | .ok request =>
    let reply : Reply α := match c.next request with
      | none => .never
      | some (.failed text) => .done (.error (fail (.service text)))
      | some (.answered response) =>
        if response.ends then .done ((response.text >>= read).mapError fail) else .never
    { reply, store := c.advance request, logs }

instance : Store Connection where
  get type ns name c :=
    c.ask .get type ns name "" ((c.collection type ns).get name) (decodeObject type)
  create type ns object c :=
    c.ask .create type ns object.name "" ((c.collection type ns).create c.manager object.document)
      (decodeObject type)
  patch type ns name patch c :=
    c.ask .patch type ns name (" with " ++ patch.toJson.compact)
      ((c.collection type ns).patch c.manager name patch) (decodeObject type)
  delete type ns name c :=
    c.ask .delete type ns name "" ((c.collection type ns).delete name) (checkDeletion type)
  watch type ns name c :=
    let watcher : Watcher := { collection := c.collection type ns, name }
    let wrap (failure : WatchFailure) : Error := .watch type ⟨name, ns⟩ failure
    { reply := .done (.ok (watcher.timeline (fun request c => c.advance request) wrap c.exchanges))
      store := c
      logs := notes type ns }

end BuilderControl.Api.Connection
