import BuilderControl.Api.Failure
import BuilderControl.Path
import BuilderControl.Resource.Type
import BuilderControl.Yaml.Fault

/-! # Errors of commands

Each error is a cause; its wording is in `Error.message` alone. -/

namespace BuilderControl

/-- A span of time in milliseconds. -/
structure Duration where
  milliseconds : Nat
deriving DecidableEq, Inhabited

namespace Duration

def ofSeconds (n : Nat) : Duration := ⟨n * 1000⟩

/-- Whole seconds with what is left over as a fraction; less than a second in milliseconds. -/
def text (d : Duration) : String :=
  let seconds := d.milliseconds / 1000
  let left := d.milliseconds % 1000
  if d.milliseconds = 0 then "0ns"
  else if seconds = 0 then toString left ++ "ms"
  else if left = 0 then toString seconds ++ "s"
  else
    let digits := (Instant.padded 3 left).toList.reverse.dropWhile (· = '0')
    toString seconds ++ "." ++ String.ofList digits.reverse ++ "s"

end Duration

/-- Kinds of values that a command line flag can have. -/
inductive FlagType where
  | bool | text | count | unsigned64
deriving DecidableEq, Inhabited

def FlagType.name : FlagType → String
  | .bool => "bool"
  | .text => "alloc::string::String"
  | .count => "u8"
  | .unsigned64 => "u64"

/-- Requests that make no sense. -/
inductive InvalidRequest where
  | unknownFormat (format : String)
  | emptyTag
  | tagMissing
  | orderMissing
  | emptyOrderFile
  | noOrderEntries
  | nothingToCreate
  | wrongFlagType (flag : String) (expected actual : FlagType)
deriving DecidableEq, Inhabited

def InvalidRequest.message : InvalidRequest → String
  | .unknownFormat format =>
    "unknown output format " ++ Text.escaped format ++ ", expected yaml or json"
  | .emptyTag => "--tag should not be empty"
  | .tagMissing => "--tag is required when creating a builder"
  | .orderMissing => "--order is required when creating a builder"
  | .emptyOrderFile => "order file is empty"
  | .noOrderEntries => "order file has no entries"
  | .nothingToCreate => "nothing to create"
  | .wrongFlagType flag expected actual =>
    "invalid --" ++ flag ++ " flag: Could not downcast to " ++ expected.name
      ++ ", need to downcast to " ++ actual.name ++ "\n"

/-- Failures of reading and writing files and streams. -/
inductive StreamFault where
  | notFound | isDirectory | notDirectory | nameTooLong | nulInName | notText | full
deriving DecidableEq, Inhabited

def StreamFault.message : StreamFault → String
  | .notFound => "No such file or directory (os error 2)"
  | .isDirectory => "Is a directory (os error 21)"
  | .notDirectory => "Not a directory (os error 20)"
  | .nameTooLong => "File name too long (os error 36)"
  | .nulInName => "file name contained an unexpected NUL byte"
  | .notText => "stream did not contain valid UTF-8"
  | .full => "writer is full"

/-- Failures of reading or writing JSON. -/
inductive JsonError where
  | unreadable (error : DecodeError)
  | unwritable (fault : StreamFault)
deriving DecidableEq, Inhabited

def JsonError.message : JsonError → String
  | .unreadable e => e.message .json
  | .unwritable f => f.message

/-- Failures of reading YAML. -/
inductive YamlError where
  | malformed (fault : Yaml.Fault)
  | unreadable (error : DecodeError)
deriving DecidableEq, Inhabited

def YamlError.message : YamlError → String
  | .malformed f => f.message
  | .unreadable e => e.message .yaml

/-- Operations on a store that can fail. -/
inductive Operation where
  | get | create | patch | delete
deriving DecidableEq, Inhabited

def Operation.name : Operation → String
  | .get => "get"
  | .create => "create"
  | .patch => "patch"
  | .delete => "delete"

inductive Error where
  | invalid (request : InvalidRequest)
  | remote (op : Operation) (type : ResourceType) (location : Location) (failure : Api.Failure)
  | unknownType (name : String)
  | orderFile (path : String) (source : Error)
  | waitFailed (type : ResourceType) (location : Location) (reason : String)
  | waitTimeout (type : ResourceType) (location : Location) (timeout : Duration)
  | waitInterrupted (type : ResourceType) (location : Location)
  | watch (type : ResourceType) (location : Location) (failure : Api.WatchFailure)
  | watchClosed (type : ResourceType) (location : Location)
  | json (error : JsonError)
  | yaml (error : YamlError)
  | stream (fault : StreamFault)
  | path (error : LookupError)
deriving DecidableEq, Inhabited

namespace Error

def message : Error → String
  | .invalid request => request.message
  | .remote op type location failure =>
    "failed to " ++ op.name ++ " " ++ type.name ++ " " ++ location.text ++ ": " ++ failure.message
  | .unknownType name => "failed to output. unknown type " ++ Text.escaped name
  | .orderFile file source => "failed to read order from " ++ file ++ ": " ++ source.message
  | .waitFailed type location reason =>
    type.name ++ " " ++ location.text ++ " failed: " ++ reason
  | .waitTimeout type location timeout =>
    "timed out after " ++ timeout.text ++ " waiting for " ++ type.name ++ " " ++ location.text
  | .waitInterrupted type location =>
    "interrupted while waiting for " ++ type.name ++ " " ++ location.text
      ++ ", the change was already applied"
  | .watch type location failure =>
    "watch for " ++ type.name ++ " " ++ location.text ++ " failed: " ++ failure.message
  | .watchClosed type location =>
    "watch for " ++ type.name ++ " " ++ location.text ++ " ended before it became ready"
  | .json e => "json error: " ++ e.message
  | .yaml e => "yaml error: " ++ e.message
  | .stream f => "io error: " ++ f.message
  | .path e => "path error: " ++ e.message

/-- Whether the server answered that the object does not exist. -/
def isNotFound : Error → Bool
  | .remote _ _ _ (.refused response) => response.code = 404
  | _ => false

/-- A document that could not be read as an object. -/
def unreadable (e : DecodeError) : Error := .json (.unreadable e)

end Error

end BuilderControl
