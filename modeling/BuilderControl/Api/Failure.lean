import BuilderControl.Schema.Error

/-! # Failures of requests to the API server -/

namespace BuilderControl.Api

/-- What the server says when it refuses a request. -/
structure ErrorResponse where
  status : String := "Failure"
  message : String
  reason : String
  code : Nat
deriving DecidableEq, Inhabited

namespace ErrorResponse

def summary (r : ErrorResponse) : String := r.message ++ ": " ++ r.reason

def details (r : ErrorResponse) : String :=
  "ErrorResponse \x7b status: " ++ Text.escaped r.status ++ ", message: " ++ Text.escaped r.message
    ++ ", reason: " ++ Text.escaped r.reason ++ ", code: " ++ toString r.code ++ " \x7d"

end ErrorResponse

/-- Why a request could not even be made. -/
inductive RequestFault where
  | emptyName
  | badUri
  | uriTooLong
deriving DecidableEq, Inhabited

def RequestFault.message : RequestFault → String
  | .emptyName => "failed to validate request: A non-empty name is required"
  | .badUri => "failed to build request: invalid uri character"
  | .uriTooLong => "failed to build request: uri too long"

inductive Failure where
  /-- The server refused. -/
  | refused (response : ErrorResponse)
  /-- There was no answer. -/
  | service (text : String)
  /-- The answer could not be read. -/
  | unreadable (error : DecodeError)
  | notSent (fault : RequestFault)
deriving DecidableEq, Inhabited

def Failure.message : Failure → String
  | .refused r => "ApiError: " ++ r.summary ++ " (" ++ r.details ++ ")"
  | .service text => "ServiceError: " ++ text
  | .unreadable e => "Error deserializing response: " ++ e.message .json
  | .notSent fault => "Failed to build request: " ++ fault.message

/-- Why following an object was interrupted. -/
inductive WatchFailure where
  | listFailed (failure : Failure)
  | startFailed (failure : Failure)
  | reported (response : ErrorResponse)
  | streamFailed (failure : Failure)
  | noVersion
deriving DecidableEq, Inhabited

def WatchFailure.message : WatchFailure → String
  | .listFailed f => "failed to perform initial object list: " ++ f.message
  | .startFailed f => "failed to start watching object: " ++ f.message
  | .reported r => "error returned by apiserver during watch: " ++ r.summary
  | .streamFailed f => "watch stream failed: " ++ f.message
  | .noVersion => "no metadata.resourceVersion in watch result (does resource support watch?)"

end BuilderControl.Api
