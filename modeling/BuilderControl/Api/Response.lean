import BuilderControl.Api.Request
import BuilderControl.Api.Schemas
import BuilderControl.Json.Reader
import BuilderControl.Resource

/-! # Answers of the API server

A body is text, and faults in it are told with their place.  An answer with an error status is a
refusal, whether or not its body says so in the proper form. -/

namespace BuilderControl.Api

/-- An answer as it arrives. -/
structure Response where
  status : Nat := 200
  body : String := ""
  /-- Whether the body comes to an end. -/
  ends : Bool := true
deriving DecidableEq, Inhabited

/-! ### Bodies -/

/-- Reads a text that holds just one value. -/
def readText {α : Type} (read : Source Json.Located → Json.Located → Except DecodeError α)
    (text : String) : Except DecodeError α := do
  let chars := text.toList
  let reading := Json.Located.read chars
  let x ← read (Source.text chars) reading.value
  match reading.trailing with
  | none => return x
  | some fault => throw ⟨.malformed fault.kind, some ⟨none, Json.lineColumn chars fault.offset⟩⟩

/-- Reads a text by a schema. -/
def decodeText (schema : Schema) : String → Except DecodeError Json :=
  readText fun src v => schema.decode src v

/-- Reads a text as an object. -/
def decodeObject (type : ResourceType) (text : String) : Except Failure Resource :=
  ((decodeText type.schema text).mapError .unreadable).map (⟨some type, ·⟩)

/-- The text of a member. -/
def textOf (j : Json) (key : String) : String := ((j.get? key).bind Json.text?).getD ""

/-- A refusal from its document. -/
def ErrorResponse.ofDocument (j : Json) : ErrorResponse where
  status := textOf j "status"
  message := textOf j "message"
  reason := textOf j "reason"
  code := (((j.get? "code").bind Json.integer?).getD 0).toNat

/-! ### Statuses -/

/-- What the statuses are called. -/
def reasonPhrase (status : Nat) : String :=
  match status with
  | 400 => "Bad Request"
  | 401 => "Unauthorized"
  | 402 => "Payment Required"
  | 403 => "Forbidden"
  | 404 => "Not Found"
  | 405 => "Method Not Allowed"
  | 406 => "Not Acceptable"
  | 407 => "Proxy Authentication Required"
  | 408 => "Request Timeout"
  | 409 => "Conflict"
  | 410 => "Gone"
  | 411 => "Length Required"
  | 412 => "Precondition Failed"
  | 413 => "Payload Too Large"
  | 414 => "URI Too Long"
  | 415 => "Unsupported Media Type"
  | 416 => "Range Not Satisfiable"
  | 417 => "Expectation Failed"
  | 418 => "I'm a teapot"
  | 421 => "Misdirected Request"
  | 422 => "Unprocessable Entity"
  | 423 => "Locked"
  | 424 => "Failed Dependency"
  | 425 => "Too Early"
  | 426 => "Upgrade Required"
  | 428 => "Precondition Required"
  | 429 => "Too Many Requests"
  | 431 => "Request Header Fields Too Large"
  | 451 => "Unavailable For Legal Reasons"
  | 500 => "Internal Server Error"
  | 501 => "Not Implemented"
  | 502 => "Bad Gateway"
  | 503 => "Service Unavailable"
  | 504 => "Gateway Timeout"
  | 505 => "HTTP Version Not Supported"
  | 506 => "Variant Also Negotiates"
  | 507 => "Insufficient Storage"
  | 508 => "Loop Detected"
  | 510 => "Not Extended"
  | 511 => "Network Authentication Required"
  | _ => "<unknown status code>"

/-- The refusal of an answer with an error status. -/
def Response.refusal? (r : Response) : Option ErrorResponse :=
  if r.status < 400 || 600 ≤ r.status then none
  else match decodeText Schemas.errorResponse r.body with
    | .ok document => some (.ofDocument document)
    | .error _ => some {
        status := toString r.status ++ " " ++ reasonPhrase r.status
        message := Text.escaped r.body
        reason := "Failed to parse error data"
        code := r.status }

/-- The text of an answer that is no refusal. -/
def Response.text (r : Response) : Except Failure String :=
  match r.refusal? with
  | some refusal => .error (.refused refusal)
  | none => .ok r.body

/-- Checks the answer to a deletion: it is a status, or else the object that is being deleted. -/
def checkDeletion (type : ResourceType) (text : String) : Except Failure Unit := do
  let document ← (decodeText .anything text).mapError .unreadable
  let schema := if document.get? "kind" = some (.str "Status") then Schemas.status else type.schema
  let _ ← (decodeText schema text).mapError Failure.unreadable

/-! ### Pages -/

/-- A page of a list. -/
structure Page where
  objects : List Resource
  /-- The version of the list, if it has one. -/
  version : Option String
  /-- Where the next page starts, if there is one. -/
  next : Option String

/-- Reads a page of objects. -/
def Page.read (type : ResourceType) (text : String) : Except Failure Page := do
  let document ← (decodeText (Schemas.page type.schema) text).mapError .unreadable
  let items := match document.get? "items" with
    | some (.arr items) => items
    | _ => []
  let metadata := Json.ofOption (document.get? "metadata")
  let given (key : String) : Option String := some (textOf metadata key) |>.filter (· ≠ "")
  return ⟨items.map (⟨some type, ·⟩), given "resourceVersion", given "continue"⟩

end BuilderControl.Api
