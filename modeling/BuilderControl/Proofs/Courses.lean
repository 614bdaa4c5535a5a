import BuilderControl.Proofs.BuilderUpdates
import BuilderControl.Proofs.Routing

/-!
# Courses of commands

Before a command changes anything, it has read its files and got the object that it is about.  What
it does from there on is its course: it fails, keeps what it has found, submits a change, deletes,
or prints.  A course makes one request at most, and then a watch.

## Key results

- `Engine.sends_submit`: what submitting a change does to a store
- `Course.leaves_action`: what a course does to a store
- `Command.exists_course`: every run of a command is that of a course
-/

namespace BuilderControl

open MemoryStore

/-! ## Requests and their records -/

namespace MemoryStore

variable {α : Type} {op : Operation} {type : ResourceType} {ns : Option String} {name : String}

/-- A store in memory answers every request. -/
theorem exists_reply_answer (entered : Option Api.ErrorResponse × MemoryStore)
    (act : MemoryStore → Except Api.ErrorResponse (Except Error α × MemoryStore)) :
    ∃ result, (answer op type ns name entered act).reply = .done result := by
  obtain ⟨_ | response, t⟩ := entered
  · simp only [answer]
    split <;> exact ⟨_, rfl⟩
  · exact ⟨_, rfl⟩

/-- Every request is recorded, whatever comes of it. -/
theorem calls_answer {kind : CallKind} {target : FaultTarget}
    {act : MemoryStore → Except Api.ErrorResponse (Except Error α × MemoryStore)}
    (hact : ∀ t result u, act t = .ok (result, u) → u.calls = t.calls) (s : MemoryStore) :
    (answer op type ns name (s.enter kind target type ns name) act).store.calls =
      s.calls ++ [⟨kind, type, ns, name⟩] := by
  simp only [enter, answer]
  -- A planned fault refuses the request before the objects are looked at
  cases (takeFault target s.faults).1 with
  | some response => rfl
  | none =>
    simp only
    split
    · rfl
    · rename_i result u hu
      exact hact _ result u hu

variable (type ns name) (s : MemoryStore)

/-- A `get` is recorded, whether it is answered or refused. -/
theorem calls_get : (Store.get type ns name s).store.calls =
    s.calls ++ [⟨.get, type, ns, name⟩] := by
  refine calls_answer (fun t result u hu => ?_) s
  split at hu <;> cases hu
  rfl

/-- A `get` leaves all objects as they are. -/
theorem objects_get : (Store.get type ns name s).store.objects = s.objects := by
  simp only [Store.get, enter, answer]
  cases (takeFault (.operation .get) s.faults).1 with
  | some response => rfl
  | none =>
    simp only
    cases Entries.get? s.objects (.ofLocation type ns name) <;> rfl

/-- A `create` is recorded with the object that it sends. -/
theorem calls_create (object : Resource) : (Store.create type ns object s).store.calls =
    s.calls ++ [⟨.create object.document, type, ns, object.name⟩] := by
  refine calls_answer (fun t result u hu => ?_) s
  simp only at hu
  split at hu <;> cases hu
  rfl

/-- A `patch` is recorded with the patch that it sends. -/
theorem calls_patch (patch : MergePatch) : (Store.patch type ns name patch s).store.calls =
    s.calls ++ [⟨.patch patch.toJson, type, ns, name⟩] := by
  refine calls_answer (fun t result u hu => ?_) s
  split at hu <;> cases hu
  rfl

/-- A `delete` is recorded. -/
theorem calls_delete : (Store.delete type ns name s).store.calls =
    s.calls ++ [⟨.delete, type, ns, name⟩] := by
  refine calls_answer (fun t result u hu => ?_) s
  split at hu <;> cases hu
  rfl

end MemoryStore

/-! ## Steps of runs -/

/-- The world after a request. -/
def World.asked {α : Type} (call : MemoryStore → Answer MemoryStore α) (w : World MemoryStore) :
    World MemoryStore :=
  { w with store := (call w.store).store, logs := w.logs ++ (call w.store).logs }

namespace Action

section Steps

variable {α β : Type} {w : World MemoryStore} {e : Error}

/-- What fails without the store is not followed by anything. -/
theorem run_ofExcept_bind_error {result : Except Error α} (h : result = .error e)
    (f : α → Action MemoryStore β) :
    (ofExcept result >>= f).run w = (fail e : Action MemoryStore β).run w := by
  rw [run_bind, h]
  rfl

/-- What succeeds without the store is followed in the same world. -/
theorem run_ofExcept_bind_ok {result : Except Error α} {a : α} (h : result = .ok a)
    (f : α → Action MemoryStore β) : (ofExcept result >>= f).run w = (f a).run w := by
  rw [run_bind, h]
  rfl

variable {call : MemoryStore → Answer MemoryStore α}

/-- A request that is refused is not followed by anything. -/
theorem run_request_bind_error (h : (call w.store).reply = .done (.error e))
    (f : α → Action MemoryStore β) :
    (request call >>= f).run w =
      (fail e : Action MemoryStore β).run (w.asked call) := by
  rw [run_bind, run_request, h]
  rfl

/-- A request that is answered is followed in the world that it leaves. -/
theorem run_request_bind_ok {a : α} (h : (call w.store).reply = .done (.ok a))
    (f : α → Action MemoryStore β) :
    (request call >>= f).run w = (f a).run (w.asked call) := by
  rw [run_bind, run_request, h]
  rfl

/-- What a look-up is followed by, from what a `get` is answered with. -/
theorem run_lookUp_bind {type : ResourceType} {ns : Option String} {name : String}
    (f : Option Resource → Action MemoryStore β) :
    (Engine.lookUp type ns name >>= f).run w =
      match (Store.get type ns name w.store).reply.found with
      | .ok found => (f found).run (w.asked (Store.get type ns name))
      | .error halt => (.error halt, w.asked (Store.get type ns name)) := by
  rw [run_bind, Engine.run_lookUp]
  cases (Store.get type ns name w.store).reply.found <;> rfl

end Steps

end Action

/-! ## Submissions -/

/-- A change of an object that has been worked out. -/
inductive Submission where
  | create (type : ResourceType) (ns : Option String) (object : Resource)
  | patch (type : ResourceType) (ns : Option String) (observed desired : Resource)
      (difference : MergePatch)

namespace Submission

def type : Submission → ResourceType
  | create type _ _ | patch type _ _ _ _ => type

def ns : Submission → Option String
  | create _ ns _ | patch _ ns _ _ _ => ns

/-- The object as it is meant to be. -/
def object : Submission → Resource
  | create _ _ object => object
  | patch _ _ _ desired _ => desired

/-- The result that is told. -/
def text : Submission → String
  | create _ _ object => "\"" ++ object.name ++ "\" created"
  | patch _ _ observed _ _ => "\"" ++ observed.name ++ "\" patched"

/-- The request that makes the change. -/
def send {σ : Type} [Store σ] : Submission → σ → Answer σ Resource
  | create type ns object => Store.create type ns object
  | patch type ns observed _ difference => Store.patch type ns observed.name difference

/-- How the request is recorded. -/
def call : Submission → Call
  | create type ns object => ⟨.create object.document, type, ns, object.name⟩
  | patch type ns observed _ difference => ⟨.patch difference.toJson, type, ns, observed.name⟩

/-- A submission is recorded as its call, whatever comes of it. -/
theorem calls_send (x : Submission) (s : MemoryStore) :
    (x.send s).store.calls = s.calls ++ [x.call] := by
  cases x with
  | create type ns object => exact calls_create type ns s object
  | patch type ns observed desired difference =>
    exact calls_patch type ns observed.name s difference

/-- A store in memory answers every submission. -/
theorem exists_reply_send (x : Submission) (s : MemoryStore) :
    ∃ result, (x.send s).reply = .done result := by
  cases x with
  | create type ns object => exact exists_reply_answer _ _
  | patch type ns observed desired difference => exact exists_reply_answer _ _

end Submission

namespace Engine

open BuilderControl.Action

/-- Submits a change, unless the run is a dry one, and reports it. -/
def submit {σ : Type} [Store σ] (s : Settings) (x : Submission) : Action σ Unit :=
  (if s.mode.dryRun then pure x.object else request x.send) >>= fun object =>
    report s x.type x.ns object x.text

/-- Creating an object is submitting it. -/
theorem create_eq_submit {σ : Type} [Store σ] (s : Settings) (type : ResourceType)
    (ns : Option String) (object : Resource) :
    (create s type ns object : Action σ Unit) = submit s (.create type ns object) := by
  simp only [create, submit]
  cases s.mode.dryRun <;> rfl

/-- What submitting a change does to a store, apart from what is said of it. -/
inductive Sends (s : Settings) (x : Submission) (t : MemoryStore) : MemoryStore → Prop
  /-- Dry runs submit nothing. -/
  | kept (hdry : s.mode.dryRun = true) : Sends s x t t
  | sent (hdry : s.mode.dryRun = false) : Sends s x t (x.send t).store
  /-- An object that was accepted is watched if the mode says so. -/
  | watched {object : Resource} (hwait : s.mode.shouldWait = true)
    (hreply : (x.send t).reply = .done (.ok object)) :
    Sends s x t (Store.watch x.type x.ns object.name (x.send t).store).store

/-- Waiting for an object leaves the store alone, or leaves a watch of this object. -/
theorem along_converge_watch (s : Settings) (type : ResourceType) (ns : Option String)
    (object : Resource) : Along (fun t t' => t' = t ∨ s.mode.shouldWait = true ∧
      t' = (Store.watch type ns object.name t).store)
      (converge s type ns object : Action MemoryStore Resource) := by
  -- If the mode does not wait, the store is not asked again
  cases hwait : s.mode.shouldWait with
  | false =>
    intro w
    exact Or.inl (quiet_converge hwait type ns object w)
  | true =>
    exact along_converge_of_reports
      (R := fun t t' : MemoryStore => t' = t ∨ true = true ∧
        t' = (Store.watch type ns object.name t).store)
      (fun t => Or.inr ⟨rfl, rfl⟩) (fun t line hline => report_of_watch hline)
      (fun t => Or.inl rfl) s rfl

section Submit

variable {s : Settings} {x : Submission} {w : World MemoryStore}

/-- In a dry run, submitting a change only reports it. -/
theorem submit_of_dryRun (hdry : s.mode.dryRun = true) (x : Submission) :
    (submit s x : Action MemoryStore Unit) = report s x.type x.ns x.object x.text := by
  simp only [submit, hdry, if_true]
  rfl

variable (hdry : s.mode.dryRun = false)
include hdry

/-- A submission that is refused is not reported. -/
theorem run_submit_of_error {e : Error} (h : (x.send w.store).reply = .done (.error e)) :
    (submit s x).run w = (.error (.failed e), w.asked x.send) := by
  simp only [submit, hdry, Bool.false_eq_true, if_false]
  exact run_request_bind_error h _

/-- A submission that is accepted is reported with the object in the answer. -/
theorem run_submit_of_ok {object : Resource} (h : (x.send w.store).reply = .done (.ok object)) :
    (submit s x).run w = (report s x.type x.ns object x.text).run (w.asked x.send) := by
  simp only [submit, hdry, Bool.false_eq_true, if_false]
  exact run_request_bind_ok h _

end Submit

/-- Submitting a change does to a store what its mode allows: nothing, one request, or that and a
watch. -/
theorem sends_submit (s : Settings) (x : Submission) : Along (Sends s x) (submit s x) := by
  intro w
  cases hdry : s.mode.dryRun with
  | true =>
    have hquiet : Quiet (report s x.type x.ns x.object x.text : Action MemoryStore Unit) :=
      along_report (quiet_converge (Mode.shouldWait_of_dryRun hdry) x.type x.ns x.object) x.text
    rw [submit_of_dryRun hdry, hquiet w]
    exact .kept hdry
  | false =>
    obtain ⟨result, hreply⟩ := x.exists_reply_send w.store
    cases result with
    | error e =>
      rw [run_submit_of_error hdry hreply]
      exact .sent hdry
    | ok object =>
      -- Only what was accepted is reported, and only that may be watched
      rw [run_submit_of_ok hdry hreply]
      rcases along_report (along_converge_watch s x.type x.ns object) x.text (w.asked x.send)
        with hstore | ⟨hwait, hstore⟩
      · rw [hstore]
        exact .sent hdry
      · rw [hstore]
        exact .watched hwait hreply

section Delete

variable {σ : Type} [Store σ] {s : Settings} (type : ResourceType) (ns : Option String)
  (name : String)

/-- In a dry run, deleting an object only tells that it is deleted. -/
theorem delete_of_dryRun (hdry : s.mode.dryRun = true) :
    (delete s type ns name : Action σ Unit) =
      emit (·.emitResult ("\"" ++ name ++ "\" deleted")) := by
  simp only [delete, hdry, Bool.not_true, Bool.false_eq_true, if_false]

/-- Otherwise the store is asked to delete it first. -/
theorem delete_of_not_dryRun (hdry : s.mode.dryRun = false) :
    (delete s type ns name : Action σ Unit) = request (Store.delete type ns name) >>= fun _ =>
      emit (·.emitResult ("\"" ++ name ++ "\" deleted")) := by
  simp only [delete, hdry]
  rfl

end Delete

/-- A deletion fails without a word, or tells its result; the router is as it was till then. -/
theorem run_delete (s : Settings) (type : ResourceType) (ns : Option String) (name : String)
    (w : World MemoryStore) : ∃ v : World MemoryStore, v.router = w.router ∧
      ((∃ halt, (delete s type ns name).run w = (.error halt, v)) ∨
        (delete s type ns name).run w =
          (emit (·.emitResult ("\"" ++ name ++ "\" deleted"))).run v) := by
  cases hdry : s.mode.dryRun with
  | true => exact ⟨w, rfl, Or.inr (by rw [delete_of_dryRun type ns name hdry])⟩
  | false =>
    obtain ⟨result, hreply⟩ : ∃ result,
        (Store.delete type ns name w.store).reply = .done result := exists_reply_answer _ _
    refine ⟨w.asked (Store.delete type ns name), rfl, ?_⟩
    rw [delete_of_not_dryRun type ns name hdry]
    cases result with
    | error e => exact Or.inl ⟨.failed e, run_request_bind_error hreply _⟩
    | ok _ => exact Or.inr (run_request_bind_ok hreply _)

/-- A submission that is not waited for fails without a word, or tells its result of the object
that was meant or of the one that it was answered with. -/
theorem run_submit_of_not_shouldWait {s : Settings} (hwait : s.mode.shouldWait = false)
    (x : Submission) (w : World MemoryStore) : ∃ v : World MemoryStore, v.router = w.router ∧
      ((∃ halt, (submit s x).run w = (.error halt, v)) ∨
        ∃ object, (object = x.object ∨ (x.send w.store).reply = .done (.ok object)) ∧
          (submit s x).run w = (tell object x.text).run v) := by
  cases hdry : s.mode.dryRun with
  | true =>
    rw [submit_of_dryRun hdry, report_of_not_shouldWait hwait]
    exact ⟨w, rfl, Or.inr ⟨x.object, Or.inl rfl, rfl⟩⟩
  | false =>
    obtain ⟨result, hreply⟩ := x.exists_reply_send w.store
    refine ⟨w.asked x.send, rfl, ?_⟩
    cases result with
    | error e => exact Or.inl ⟨.failed e, run_submit_of_error hdry hreply⟩
    | ok object =>
      refine Or.inr ⟨object, Or.inr hreply, ?_⟩
      rw [run_submit_of_ok hdry hreply, report_of_not_shouldWait hwait]

/-- A change that is reported was accepted, and nothing else is changed after it. -/
theorem of_submit_ok {s : Settings} (hdry : s.mode.dryRun = false) {x : Submission}
    {w w' : World MemoryStore} (h : (submit s x).run w = (.ok (), w')) :
    (∃ object, (x.send w.store).reply = .done (.ok object)) ∧
      w'.store.objects = (x.send w.store).store.objects := by
  constructor
  · obtain ⟨result, hreply⟩ := x.exists_reply_send w.store
    cases result with
    | ok object => exact ⟨object, hreply⟩
    | error e =>
      rw [run_submit_of_error hdry hreply] at h
      cases h
  · have hsends := sends_submit s x w
    rw [h] at hsends
    generalize w'.store = t at hsends
    cases hsends with
    -- The run is not a dry one
    | kept htrue => cases hdry.symm.trans htrue
    | sent => rfl
    | watched => rfl

end Engine

/-! ## Courses -/

/-- What is left for a command to do. -/
inductive Course where
  | fail (error : Error)
  /-- There is nothing to change in what was observed. -/
  | keep (observed : Resource)
  | submit (x : Submission)
  | delete (type : ResourceType) (ns : Option String) (name : String)
  | print (type : ResourceType) (name : String) (object : Resource)

namespace Course

open BuilderControl.Action

/-- What is told if there is nothing to change. -/
def keepText : String := "nothing to patch"

/-- What is told about an object that is shown. -/
def printText (type : ResourceType) (name : String) (object : Resource) : String :=
  type.name ++ " \"" ++ name ++ "\" " ++ Command.describe object

/-- The action of a course. -/
def action (s : Settings) : Course → Action MemoryStore Unit
  | fail e => Action.fail e
  | keep observed => Engine.tell observed keepText
  | submit x => Engine.submit s x
  | delete type ns name => Engine.delete s type ns name
  | print type name object =>
    if s.mode.outputRequested then emit (·.emitObjects [object])
    else emit (·.emitLine (printText type name object))

/-- What a course does to a store. -/
def Leaves (s : Settings) (t t' : MemoryStore) : Course → Prop
  | submit x => Engine.Sends s x t t'
  | delete type ns name => t' = if s.mode.dryRun then t else (Store.delete type ns name t).store
  | _ => t' = t

/-- The action of a course does to a store what the course says. -/
theorem leaves_action (s : Settings) (course : Course) :
    Along (fun t t' => course.Leaves s t t') (course.action s) := by
  intro w
  cases course with
  | fail e => rfl
  | keep observed => exact Engine.quiet_tell observed keepText w
  | submit x => exact Engine.sends_submit s x w
  | delete type ns name =>
    cases hdry : s.mode.dryRun with
    | true =>
      simp only [Leaves, hdry, if_true, action, Engine.delete_of_dryRun type ns name hdry]
      -- A dry run deletes nothing
      exact quiet_emit _ w
    | false =>
      simp only [Leaves, hdry, Bool.false_eq_true, if_false, action,
        Engine.delete_of_not_dryRun type ns name hdry]
      exact (along_request (Store.delete type ns name)).then_quiet (fun _ => quiet_emit _) w
  | print type name object =>
    have hquiet : Quiet (action s (.print type name object)) := by
      simp only [action]
      split <;> exact quiet_emit _
    exact hquiet w

end Course

namespace Command

/-- The object that an update is about is that of the command. -/
theorem Updates.unique {type type' : ResourceType} {ns ns' : Option String} {name name' : String}
    {request request' : ChangeRequest} {c : Command} (h : c.Updates type ns name request)
    (h' : c.Updates type' ns' name' request') :
    type = type' ∧ ns = ns' ∧ name = name' ∧ request = request' := by
  cases h with
  | patch =>
    cases h'
    exact ⟨rfl, rfl, rfl, rfl⟩
  | save account htype =>
    cases h' with
    | save _ htype' => exact ⟨htype.symm.trans htype', rfl, rfl, rfl⟩

/-- Commands that end with an error when their files and values are looked at. -/
inductive Rejects (files : Files) : Command → Error → Prop
  | emptyTag (account : Builder.Account) (ns : Option String) (name stack store order : String) :
    Rejects files (.create account ns name "" stack store order) (.invalid .emptyTag)
  | order (account : Builder.Account) (ns : Option String) (name stack store : String)
    {tag order : String} {e : Error} (htag : tag ≠ "") (horder : Order.ofFile files order = .error e) :
    Rejects files (.create account ns name tag stack store order) e
  | changes {type : ResourceType} {ns : Option String} {name : String} {request : ChangeRequest}
    {c : Command} {e : Error} (h : c.Updates type ns name request)
    (hread : request.read files = .error e) : Rejects files c e

/-- How a command gets to its course, and the store that it gets there with. -/
inductive Takes (differ : Differ) (files : Files) (s : MemoryStore) :
    Command → Course → MemoryStore → Prop
  | reject {c : Command} {e : Error} (h : c.Rejects files e) : Takes differ files s c (.fail e) s
  | create (account : Builder.Account) (ns : Option String) (name stack store : String)
    {tag path : String} {order : List Json} (htag : tag ≠ "")
    (horder : Order.ofFile files path = .ok order) :
    Takes differ files s (.create account ns name tag stack store path)
      (.submit (.create account.type ns (Builder.new account ns name ⟨tag, stack, store, order⟩))) s
  /-- There is no such object, or something is wrong with it; to `save`, only the latter is. -/
  | unread {type : ResourceType} {ns : Option String} {name : String} {request : ChangeRequest}
    {c : Command} {changes : Builder.Changes} {e : Error} (h : c.Updates type ns name request)
    (hread : request.read files = .ok changes)
    (hreply : (Store.get type ns name s).reply = .done (.error e))
    (hsave : ∀ account, c = .save account ns name request → e.isNotFound = false) :
    Takes differ files s c (.fail e) (Store.get type ns name s).store
  | keep {type : ResourceType} {ns : Option String} {name : String} {request : ChangeRequest}
    {c : Command} {changes : Builder.Changes} {observed : Resource}
    (h : c.Updates type ns name request) (hread : request.read files = .ok changes)
    (hreply : (Store.get type ns name s).reply = .done (.ok observed))
    (hdiff : (differ.diff observed.document (changes.apply observed).document).isEmpty = true) :
    Takes differ files s c (.keep observed) (Store.get type ns name s).store
  | patch {type : ResourceType} {ns : Option String} {name : String} {request : ChangeRequest}
    {c : Command} {changes : Builder.Changes} {observed : Resource}
    (h : c.Updates type ns name request) (hread : request.read files = .ok changes)
    (hreply : (Store.get type ns name s).reply = .done (.ok observed))
    (hdiff : (differ.diff observed.document (changes.apply observed).document).isEmpty = false) :
    Takes differ files s c
      (.submit (.patch type ns observed (changes.apply observed)
        (differ.diff observed.document (changes.apply observed).document)))
      (Store.get type ns name s).store
  /-- What `save` needs to make a new object is not given. -/
  | incomplete (account : Builder.Account) (ns : Option String) (name : String)
    {request : ChangeRequest} {changes : Builder.Changes} {e : Error} {missing : InvalidRequest}
    (hread : request.read files = .ok changes)
    (hreply : (Store.get account.type ns name s).reply = .done (.error e))
    (he : e.isNotFound = true) (hcontent : changes.content = .error missing) :
    Takes differ files s (.save account ns name request) (.fail (.invalid missing))
      (Store.get account.type ns name s).store
  | new (account : Builder.Account) (ns : Option String) (name : String)
    {request : ChangeRequest} {changes : Builder.Changes} {e : Error} {content : Builder.Content}
    (hread : request.read files = .ok changes)
    (hreply : (Store.get account.type ns name s).reply = .done (.error e))
    (he : e.isNotFound = true) (hcontent : changes.content = .ok content) :
    Takes differ files s (.save account ns name request)
      (.submit (.create account.type ns (Builder.new account ns name content)))
      (Store.get account.type ns name s).store
  | delete (type : ResourceType) (ns : Option String) (name : String) :
    Takes differ files s (.delete type ns name) (.delete type ns name) s
  | missing (type : ResourceType) (ns : Option String) (name : String) {e : Error}
    (hreply : (Store.get type (if type.isClusterScoped then none else ns) name s).reply =
      .done (.error e)) :
    Takes differ files s (.get type ns name) (.fail e)
      (Store.get type (if type.isClusterScoped then none else ns) name s).store
  | print (type : ResourceType) (ns : Option String) (name : String) {object : Resource}
    (hreply : (Store.get type (if type.isClusterScoped then none else ns) name s).reply =
      .done (.ok object)) :
    Takes differ files s (.get type ns name) (.print type name object)
      (Store.get type (if type.isClusterScoped then none else ns) name s).store

section Run

open BuilderControl.Action Engine

variable {s : Settings} {files : Files} {w : World MemoryStore}

/-- A run is that of a course which the command takes from a store. -/
def RunsCourse (c : Command) (files : Files) (s : Settings) (store : MemoryStore) (router : Router)
    (run : Except Halt Unit × World MemoryStore) : Prop :=
  ∃ (course : Course) (u : World MemoryStore), c.Takes s.differ files store course u.store ∧
    u.router = router ∧ run = (course.action s).run u

/-- A command that is rejected makes no request. -/
theorem run_of_rejects {c : Command} {e : Error} (h : c.Rejects files e) :
    (c.run files s).run w = (.error (.failed e), w) := by
  cases h with
  | emptyTag account ns name stack store order =>
    have hfail : (.error (.invalid .emptyTag) : Except Error PUnit) = .error (.invalid .emptyTag) :=
      rfl
    exact run_ofExcept_bind_error hfail _
  | order account ns name stack store htag horder =>
    rename_i tag path
    have hempty : tag.isEmpty = false := by simpa using htag
    simp only [Command.run, hempty, Bool.false_eq_true, if_false]
    exact run_ofExcept_bind_error horder _
  | changes hupdates hread =>
    -- Both commands that update read their changes first
    cases hupdates with
    | patch => exact run_ofExcept_bind_error hread _
    | save account htype => exact run_ofExcept_bind_error hread _

/-- The course of a command that is rejected is to fail. -/
private theorem runsCourse_of_rejects {c : Command} {e : Error} (h : c.Rejects files e) :
    c.RunsCourse files s w.store w.router ((c.run files s).run w) :=
  ⟨.fail e, w, .reject h, rfl, run_of_rejects h⟩

/-- `create` submits the object that its arguments describe. -/
private theorem runsCourse_create (account : Builder.Account) (ns : Option String)
    (name tag stack store path : String) :
    (create account ns name tag stack store path).RunsCourse files s w.store w.router
      (((create account ns name tag stack store path).run files s).run w) := by
  by_cases htag : tag = ""
  · subst htag
    exact runsCourse_of_rejects (.emptyTag account ns name stack store path)
  · cases horder : Order.ofFile files path with
    | error e => exact runsCourse_of_rejects (.order account ns name stack store htag horder)
    | ok order =>
      have hempty : tag.isEmpty = false := by simpa using htag
      refine ⟨_, w, .create account ns name stack store htag horder, rfl, ?_⟩
      simp only [Command.run, hempty, Bool.false_eq_true, if_false, create_eq_submit]
      exact run_ofExcept_bind_ok horder _

/-- What was observed is kept, or the difference is submitted. -/
private theorem runsCourse_difference {type : ResourceType} {ns : Option String} {name : String}
    {request : ChangeRequest} {c : Command} (h : c.Updates type ns name request)
    {changes : Builder.Changes} (hread : request.read files = .ok changes) {store : MemoryStore}
    {observed : Resource}
    (hreply : (Store.get type ns name store).reply = .done (.ok observed))
    (hw : w.store = (Store.get type ns name store).store) :
    c.RunsCourse files s store w.router
      ((Engine.patch s type ns observed (changes.apply observed)).run w) := by
  -- An empty difference is logged and not submitted
  cases hdiff : (s.differ.diff observed.document (changes.apply observed).document).isEmpty with
  | true =>
    obtain ⟨u, hu, hrouter, hrun⟩ := run_patch_of_isEmpty type ns observed _ hdiff w
    have htakes := Takes.keep h hread hreply hdiff
    rw [← hw, ← hu] at htakes
    exact ⟨_, u, htakes, hrouter, hrun⟩
  | false =>
    obtain ⟨u, hu, hrouter, hrun⟩ := run_patch type ns observed _ hdiff w
    have htakes := Takes.patch h hread hreply hdiff
    rw [← hw, ← hu] at htakes
    exact ⟨_, u, htakes, hrouter, hrun⟩

/-- `patch` changes what it finds, and fails if it finds nothing. -/
private theorem runsCourse_patch (type : ResourceType) (ns : Option String) (name : String)
    (request : ChangeRequest) :
    (patch type ns name request).RunsCourse files s w.store w.router
      (((patch type ns name request).run files s).run w) := by
  cases hread : request.read files with
  | error e => exact runsCourse_of_rejects (.changes .patch hread)
  | ok changes =>
    obtain ⟨result, hreply⟩ : ∃ result, (Store.get type ns name w.store).reply = .done result :=
      exists_reply_answer _ _
    cases result with
    | error e =>
      exact ⟨_, w.asked (Store.get type ns name),
        .unread .patch hread hreply (fun _ h => by cases h), rfl,
        (run_ofExcept_bind_ok hread _).trans (run_request_bind_error hreply _)⟩
    | ok observed =>
      -- The course is taken in the world that the answered `get` leaves
      obtain ⟨course, u, htakes, hrouter, hrun⟩ := runsCourse_difference (s := s)
        (w := w.asked (Store.get type ns name)) .patch hread hreply rfl
      exact ⟨course, u, htakes, hrouter,
        (run_ofExcept_bind_ok hread _).trans ((run_request_bind_ok hreply _).trans hrun)⟩

section Save

variable (account : Builder.Account) (ns : Option String) (name : String)
  {request : ChangeRequest} {changes : Builder.Changes} (hread : request.read files = .ok changes)
include hread

/-- Once its changes are read, `save` does what the answer to its `get` asks for. -/
private theorem run_save :
    ((save account ns name request).run files s).run w =
      match (Store.get account.type ns name w.store).reply.found with
      | .ok found => (match found with
          | some observed => Engine.patch s account.type ns observed (changes.apply observed)
          | none => log .debug (account.type.name ++ " \"" ++ name ++ "\" not found, creating") >>=
              fun _ => ofExcept ((changes.content.mapError Error.invalid).map
                (Builder.new account ns name)) >>= Engine.create s account.type ns).run
            (w.asked (Store.get account.type ns name))
      | .error halt => (.error halt, w.asked (Store.get account.type ns name)) :=
  (run_ofExcept_bind_ok hread _).trans (run_lookUp_bind _)

/-- Where nothing is found, `save` makes a new object of its changes, if they suffice. -/
private theorem runsCourse_save_new {e : Error}
    (hreply : (Store.get account.type ns name w.store).reply = .done (.error e))
    (he : e.isNotFound = true) :
    (save account ns name request).RunsCourse files s w.store w.router
      (((save account ns name request).run files s).run w) := by
  have hrun := run_save (s := s) (w := w) account ns name hread
  simp only [hreply, Reply.found, he, if_true] at hrun
  -- That nothing was found is logged before a new object is made
  let u : World MemoryStore :=
    { w.asked (Store.get account.type ns name) with
      logs := (w.asked (Store.get account.type ns name)).logs ++
        [⟨.debug, account.type.name ++ " \"" ++ name ++ "\" not found, creating"⟩] }
  have hmake := hrun.trans (run_bind_of_ok (run_log _ _ _))
  cases hcontent : changes.content with
  | error missing =>
    have hmissing : (changes.content.mapError Error.invalid).map (Builder.new account ns name) =
        .error (.invalid missing) := by
      rw [hcontent]
      rfl
    exact ⟨_, u, .incomplete account ns name hread hreply he hcontent, rfl,
      hmake.trans (run_ofExcept_bind_error hmissing _)⟩
  | ok content =>
    have hmade : (changes.content.mapError Error.invalid).map (Builder.new account ns name) =
        .ok (Builder.new account ns name content) := by
      rw [hcontent]
      rfl
    have hnew := hmake.trans (run_ofExcept_bind_ok hmade _)
    rw [create_eq_submit] at hnew
    exact ⟨_, u, .new account ns name hread hreply he hcontent, rfl, hnew⟩

end Save

/-- `save` changes what it finds, and makes what it does not find. -/
private theorem runsCourse_save (account : Builder.Account) (ns : Option String) (name : String)
    (request : ChangeRequest) :
    (save account ns name request).RunsCourse files s w.store w.router
      (((save account ns name request).run files s).run w) := by
  cases hread : request.read files with
  | error e => exact runsCourse_of_rejects (.changes (.save account rfl) hread)
  | ok changes =>
    obtain ⟨result, hreply⟩ : ∃ result,
        (Store.get account.type ns name w.store).reply = .done result := exists_reply_answer _ _
    have hrun := run_save (s := s) (w := w) account ns name hread
    cases result with
    | error e =>
      -- Any answer but that nothing was found ends the command
      cases he : e.isNotFound with
      | false =>
        simp only [hreply, Reply.found, he] at hrun
        exact ⟨_, w.asked (Store.get account.type ns name),
          .unread (.save account rfl) hread hreply fun _ _ => he, rfl, hrun⟩
      | true => exact runsCourse_save_new account ns name hread hreply he
    | ok observed =>
      simp only [hreply, Reply.found] at hrun
      obtain ⟨course, u, htakes, hrouter, hpatch⟩ := runsCourse_difference (s := s)
        (w := w.asked (Store.get account.type ns name)) (.save account rfl) hread hreply rfl
      exact ⟨course, u, htakes, hrouter, hrun.trans hpatch⟩

/-- `get` prints what it finds. -/
private theorem runsCourse_get (type : ResourceType) (ns : Option String) (name : String) :
    (get type ns name).RunsCourse files s w.store w.router
      (((get type ns name).run files s).run w) := by
  obtain ⟨result, hreply⟩ : ∃ result,
      (Store.get type (if type.isClusterScoped then none else ns) name w.store).reply =
        .done result := exists_reply_answer _ _
  cases result with
  | error e =>
    exact ⟨_, w.asked _, .missing type ns name hreply, rfl, run_request_bind_error hreply _⟩
  | ok object =>
    exact ⟨_, w.asked _, .print type ns name hreply, rfl, run_request_bind_ok hreply _⟩

/-- Every run of a command is that of a course that it takes. -/
theorem exists_course (c : Command) (files : Files) (s : Settings) (w : World MemoryStore) :
    ∃ (course : Course) (u : World MemoryStore), c.Takes s.differ files w.store course u.store ∧
      u.router = w.router ∧ (c.run files s).run w = (course.action s).run u := by
  cases c with
  | create account ns name tag stack store path =>
    exact runsCourse_create account ns name tag stack store path
  | patch type ns name request => exact runsCourse_patch type ns name request
  | save account ns name request => exact runsCourse_save account ns name request
  | delete type ns name => exact ⟨_, w, .delete type ns name, rfl, rfl⟩
  | get type ns name => exact runsCourse_get type ns name

end Run

end Command

/-! ## Endings -/

/-- What a run has left behind. -/
def Ending.ofRun {σ : Type} (run : Except Halt Unit × World σ) : Ending σ where
  halt := match run.1 with
    | .ok () => none
    | .error halt => some halt
  store := run.2.store
  out := run.2.router.out
  err := run.2.router.err
  logs := run.2.logs

/-- An ending has no fault exactly if the run ended well. -/
theorem Ending.halt_ofRun_eq_none {σ : Type} {run : Except Halt Unit × World σ} :
    (ofRun run).halt = none ↔ run.1 = .ok () := by
  obtain ⟨⟨halt⟩ | ⟨⟨⟩⟩, w⟩ := run
  · exact ⟨nofun, nofun⟩
  · exact ⟨fun _ => rfl, fun _ => rfl⟩

/-- An invocation ends as its command does. -/
theorem Invocation.perform_eq {σ : Type} [Store σ] {i : Invocation} {out err : Sink}
    {router : Router} (h : Router.ofMode i.mode .standard out err = .ok router) (files : Files)
    (interrupt : Option Nat) (store : σ) :
    i.perform files interrupt out err store =
      .ofRun ((i.command.run files { mode := i.mode, patience := ⟨i.timeout, interrupt⟩ }).run
        { store, router }) := by
  simp only [perform, Action.perform, h]
  rfl

/-- An invocation whose mode is refused ends before its command runs. -/
theorem Invocation.perform_of_refused {σ : Type} [Store σ] {i : Invocation} {out err : Sink}
    {request : InvalidRequest} (h : Router.ofMode i.mode .standard out err = .error request)
    (files : Files) (interrupt : Option Nat) (store : σ) :
    i.perform files interrupt out err store =
      ⟨some (.failed (.invalid request)), store, out, err, []⟩ := by
  simp only [perform, Action.perform, h]

/-- An invocation that succeeds has a format that is known, or none. -/
theorem Invocation.exists_format {σ : Type} [Store σ] {i : Invocation} {files : Files}
    {interrupt : Option Nat} {out err : Sink} {store : σ}
    (h : (i.perform files interrupt out err store).halt = none) :
    ∃ format, i.mode.output.mapM Format.ofName = .ok format := by
  cases hformat : i.mode.output.mapM Format.ofName with
  | ok format => exact ⟨format, rfl⟩
  | error request =>
    rw [perform_of_refused (Router.ofMode_eq_error hformat .standard out err)] at h
    cases h

end BuilderControl
