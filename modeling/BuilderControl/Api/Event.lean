import BuilderControl.Api.Response

/-! # Events of a watch

The body of a watch is lines, each of which is an event with a kind and what it is about. -/

namespace BuilderControl.Api

/-- What a line of a watch says. -/
inductive Event where
  /-- The object is there, in this version. -/
  | present (object : Resource)
  | deleted (object : Resource)
  | bookmark (version : String)
  | error (response : ErrorResponse)

/-- Kinds of events. -/
def eventKinds : List String := ["ADDED", "MODIFIED", "DELETED", "BOOKMARK", "ERROR"]

namespace Event

variable {ν : Type}

/-- Reads what an event of a kind is about. -/
def readContent (src : Source ν) (type : ResourceType) (kind : Json) (v : ν) :
    Except DecodeError Event :=
  let object : Except DecodeError Resource := (type.schema.decode src v).map (⟨some type, ·⟩)
  match kind with
  | .str "DELETED" => object.map .deleted
  | .str "BOOKMARK" => (Schemas.bookmark.decode src v).map fun j =>
      .bookmark (textOf (Json.ofOption (j.get? "metadata")) "resourceVersion")
  | .str "ERROR" => (Schemas.errorResponse.decode src v).map fun j => .error (.ofDocument j)
  | _ => object.map .present

/-- What was read of an event so far. -/
inductive Partial (ν : Type) where
  | nothing
  | kind (kind : Json)
  | content (value : ν)
  | event (event : Event)

/-- Reads a member of an event.  What comes before the kind is set aside, and so loses its places. -/
def readMember (src : Source ν) (type : ResourceType) (done : Option Spot) (p : Partial ν) :
    Member ν → Except DecodeError (Partial ν)
  | .fault e => .error e
  | .entry key value before after =>
    if key = "type" then
      match p with
      | .nothing => (decodeKind value).map .kind
      | .content v => do
        let kind ← decodeKind value
        ((readContent src.buffered type kind v).mapError (·.settle done)).map .event
      | .kind _ | .event _ => .error ⟨.duplicateField "type", before⟩
    else if key = "object" then
      match p with
      | .nothing => (src.whole value).map fun _ => .content value
      | .kind kind => ((readContent src type kind value).mapError (·.settle after)).map .event
      | .content _ | .event _ => .error ⟨.duplicateField "object", before⟩
    else (src.skip value).map fun _ => p
where
  decodeKind (value : ν) : Except DecodeError Json := Schema.decodeChoice src eventKinds value

/-- Reads an event. -/
def read (src : Source ν) (type : ResourceType) (v : ν) : Except DecodeError Event :=
  let title := "adjacently tagged enum WatchEvent"
  match src.layer v with
  | .map members done => do
    match ← members.foldlM (readMember src type done) .nothing with
    | .event event => return event
    | .kind _ => throw ⟨.missingField "object", done⟩
    | .content _ | .nothing => throw ⟨.missingField "type", done⟩
  | .list items done =>
    match items with
    | [] => .error ⟨.wrongLength 0 title, done⟩
    | [kind] => do
      let _ ← Schema.decodeChoice src eventKinds kind
      throw ⟨.wrongLength 1 title, done⟩
    | kind :: value :: more => do
      let kind ← Schema.decodeChoice src eventKinds kind
      let event ← (readContent src type kind value).mapError (·.settle done)
      match more with
      | [] => return event
      | extra :: _ => throw ((src.excess items.length 2 extra).settle done)
  | layer => .error (src.mismatch v layer title)

/-- Reads the event of a line. -/
def ofLine (type : ResourceType) : String → Except DecodeError Event :=
  readText fun src v => read src type v

end Event

/-- Whether a text is no more than the start of a document. -/
def isCutOff (e : DecodeError) : Bool :=
  match e.cause with
  | .malformed kind => kind.isEnd
  | _ => false

/-- The events of a line: none for one that was cut off; a refusal is an event of its own. -/
def readLine (type : ResourceType) (line : String) : Option (Except Failure Event) :=
  match Event.ofLine type line with
  | .ok event => some (.ok event)
  | .error e =>
    if isCutOff e then none
    else match decodeText Schemas.errorResponse line with
      | .ok document => some (.error (.refused (.ofDocument document)))
      | .error _ => some (.error (.unreadable e))

/-- The lines of a body.  The last one counts only if it is terminated, or if the body ends. -/
def Response.lines (r : Response) : List String :=
  let parts := r.body.splitOn "\n"
  let bare (line : String) : String :=
    if line.endsWith "\r" then String.ofList line.toList.dropLast else line
  let last := parts.getLast?.getD ""
  parts.dropLast.map bare ++ (if r.ends && last ≠ "" && last ≠ "\r" then [bare last] else [])

end BuilderControl.Api
