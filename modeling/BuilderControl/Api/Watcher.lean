import BuilderControl.Api.Connection
import BuilderControl.Store

/-! # Watching an object on an API server

A watcher lists the object and then watches it from the version of the list on.  When a watch ends
it is resumed from the last version seen; when that version is too old the object is listed again.
After a failure the watcher rests before it goes on, longer each time. -/

namespace BuilderControl.Api

/-- What a watcher does next. -/
inductive Phase where
  /-- It lists the object, from the first page or from a token on. -/
  | listing (token : Option String)
  /-- It watches the object from a version on. -/
  | watching (version : String)
deriving DecidableEq, Inhabited

structure Watcher where
  collection : Collection
  name : String
  phase : Phase := .listing none
  /-- How often it has rested. -/
  failures : Nat := 0
  /-- Milliseconds until it goes on. -/
  rest : Nat := 0
deriving DecidableEq, Inhabited

namespace Watcher

/-- Milliseconds of the first rest. -/
def firstRest : Nat := 800

/-- Milliseconds of the longest rest. -/
def longestRest : Nat := 30000

/-- The rest after some earlier failures. -/
def restAfter (failures : Nat) : Nat := min longestRest (firstRest * Nat.pow 2 (min failures 6))

/-- What a watcher reports, each time with the milliseconds since the report before. -/
abbrev Reports := List (Nat × Except WatchFailure Resource)

/-- Reports a failure and rests. -/
def fail (w : Watcher) (phase : Phase) (failure : WatchFailure) : Reports × Watcher :=
  ([(w.rest, .error failure)],
    { w with phase, failures := w.failures + 1, rest := restAfter w.failures })

/-- Reports versions of the object. -/
def report (w : Watcher) (phase : Phase) (objects : List Resource) : Reports × Watcher :=
  match objects with
  | [] => ([], { w with phase })
  | x :: xs => ((w.rest, .ok x) :: xs.map (0, .ok ·), { w with phase, rest := 0 })

/-- Goes on with the text of a list. -/
def takePage (w : Watcher) (text : Except Failure String) : Reports × Watcher :=
  match text >>= Page.read w.collection.type with
  | .error failure => w.fail (.listing none) (.listFailed failure)
  | .ok page =>
    match page.next, page.version with
    | some token, _ => w.report (.listing (some token)) page.objects
    | none, some version => w.report (.watching version) page.objects
    | none, none => w.fail (.listing none) .noVersion

/-- The version of an object. -/
def versionOf (object : Resource) : String := textOf object.metadata "resourceVersion"

/-- Goes on with an event of a watch from `version` on. -/
def takeEvent (w : Watcher) (version : String) : Except Failure Event → Reports × Watcher
  | .error failure => w.fail (.watching version) (.streamFailed failure)
  | .ok (.present object) =>
    if versionOf object = "" then w.fail (.listing none) .noVersion
    else w.report (.watching (versionOf object)) [object]
  | .ok (.deleted object) =>
    if versionOf object = "" then w.fail (.listing none) .noVersion
    else ([], { w with phase := .watching (versionOf object) })
  | .ok (.bookmark version) => ([], { w with phase := .watching version })
  | .ok (.error response) =>
    w.fail (if response.code = 410 then .listing none else .watching version) (.reported response)

/-- Goes on with the lines of a watch; the rest of them is dropped once the object has to be listed
again. -/
def takeLines (w : Watcher) : List String → Reports × Watcher
  | [] => ([], w)
  | line :: lines =>
    match w.phase, readLine w.collection.type line with
    | .listing _, _ => ([], w)
    | .watching _, none => w.takeLines lines
    | .watching version, some event =>
      let (reports, w) := w.takeEvent version event
      let (more, w) := w.takeLines lines
      (reports ++ more, w)

/-- The next request. -/
def request (w : Watcher) : Except RequestFault Request :=
  match w.phase with
  | .listing token => w.collection.list w.name token
  | .watching version => w.collection.watch w.name version

/-- Goes on with what becomes of a request.  `false` tells that an answer never comes to an end. -/
def take (w : Watcher) (exchange : Exchange) : Bool × Reports × Watcher :=
  match w.phase, exchange with
  | .listing _, .failed text => (true, w.takePage (.error (.service text)))
  | .listing _, .answered response =>
    if response.ends then (true, w.takePage response.text) else (false, [], w)
  | .watching version, .failed text =>
    (true, w.fail (.watching version) (.startFailed (.service text)))
  | .watching _, .answered response =>
    let (reports, after) := w.takeLines response.lines
    let listsAgain := match after.phase with
      | .listing _ => true
      | .watching _ => false
    (response.ends || listsAgain, reports, after)

/-- The failure of a request that can not be sent. -/
def unsent (w : Watcher) (fault : RequestFault) : WatchFailure :=
  match w.phase with
  | .listing _ => .listFailed (.notSent fault)
  | .watching _ => .startFailed (.notSent fault)

variable {σ : Type}

/-- What happens while a watcher goes on.  `send` records a request, and `wrap` makes an error of a
failure.  A request that can not be sent is not tried again. -/
def timeline (send : Request → σ → σ) (wrap : WatchFailure → Error) (w : Watcher) :
    List Exchange → Timeline σ
  | [] =>
    match w.request with
    | .error fault => ⟨[(w.rest, .report (.error (wrap (w.unsent fault))))], none⟩
    | .ok request => ⟨[(w.rest, .effect (send request))], none⟩
  | exchange :: exchanges =>
    match w.request with
    | .error fault => ⟨[(w.rest, .report (.error (wrap (w.unsent fault))))], none⟩
    | .ok request =>
      let (goesOn, reports, after) := { w with rest := 0 }.take exchange
      let steps : List (Nat × Occurrence σ) := (w.rest, .effect (send request)) ::
        reports.map fun (delay, result) => (delay, .report (result.mapError wrap))
      if !goesOn then ⟨steps, none⟩
      else
        let line := timeline send wrap after exchanges
        ⟨steps ++ line.steps, line.ending⟩

end Watcher

end BuilderControl.Api
