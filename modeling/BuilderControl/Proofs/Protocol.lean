import BuilderControl.Proofs.Courses
import BuilderControl.Proofs.Reporting
import BuilderControl.Proofs.Stable

/-!
# The requests of commands

Every command makes its requests in a fixed order: it gets the object that it is about, if it has to
know it, then makes its change, and then perhaps a watch.  A request is made only after those before
it have led to it.

## Key results

- `Course.exists_made`: the requests of a course
- `Command.Takes.exists_leads`: the requests that lead to a course
- `Invocation.perform_protocol`: the requests of an invocation
-/

namespace BuilderControl

open MemoryStore

/-! ## Kinds of requests -/

/-- What a request does. -/
inductive Verb where
  | get | create | patch | delete | watch
deriving DecidableEq

/-- Requests that are meant to change the store. -/
def Verb.writes : Verb → Bool
  | create | patch | delete => true
  | get | watch => false

def CallKind.verb : CallKind → Verb
  | get => .get
  | create _ => .create
  | patch _ => .patch
  | delete => .delete
  | watch => .watch

def Call.verb (call : Call) : Verb := call.kind.verb

/-- The requests that a command may make, in their order. -/
def Command.sequences : Command → List (List Verb)
  | create .. => [[], [.create], [.create, .watch]]
  | patch .. => [[], [.get], [.get, .patch], [.get, .patch, .watch]]
  | save .. => [[], [.get], [.get, .create], [.get, .create, .watch], [.get, .patch],
      [.get, .patch, .watch]]
  | delete .. => [[], [.delete]]
  | get .. => [[.get]]

/-! ## Requests of courses -/

namespace Course

/-- The requests that a course may make, in their order. -/
def sequences : Course → List (List Verb)
  | submit x => [[], [x.call.verb], [x.call.verb, .watch]]
  | delete .. => [[], [.delete]]
  | _ => [[]]

/-- The requests of a course: none in a dry run, a watch only of what was accepted, and none of
them without a change if the store's objects are different after them. -/
structure Makes (s : Settings) (course : Course) (t t' : MemoryStore) (made : List Call) : Prop where
  recorded : t'.calls = t.calls ++ made
  sequence : made.map Call.verb ∈ course.sequences
  dry : s.mode.dryRun = true → made = []
  submitted : ∀ call ∈ made, call.verb = .create ∨ call.verb = .patch →
    ∃ x, course = .submit x ∧ call = x.call
  watched : ∀ call ∈ made, call.verb = .watch → s.mode.shouldWait = true ∧
    ∃ x object, course = .submit x ∧ (x.send t).reply = .done (.ok object) ∧
      t' = (Store.watch x.type x.ns object.name (x.send t).store).store
  contents : t'.objects ≠ t.objects → ∃ call ∈ made, call.verb.writes = true

variable {s : Settings} {t : MemoryStore}

/-- A course that leaves the store alone makes no request. -/
private theorem makes_nil {course : Course} (h : [] ∈ course.sequences) :
    course.Makes s t t [] where
  recorded := (List.append_nil _).symm
  sequence := h
  dry _ := rfl
  submitted _ hcall := absurd hcall List.not_mem_nil
  watched _ hcall := absurd hcall List.not_mem_nil
  contents h := absurd rfl h

/-- A deletion makes one request. -/
private theorem makes_delete (hdry : s.mode.dryRun = false) (type : ResourceType)
    (ns : Option String) (name : String) :
    (delete type ns name).Makes s t (Store.delete type ns name t).store
      [⟨.delete, type, ns, name⟩] where
  recorded := calls_delete type ns name t
  sequence := List.mem_cons_of_mem _ List.mem_cons_self
  dry htrue := by cases hdry.symm.trans htrue
  submitted call hcall hverb := by
    cases List.mem_singleton.1 hcall
    rcases hverb with hverb | hverb <;> cases hverb
  watched call hcall hverb := by
    cases List.mem_singleton.1 hcall
    cases hverb
  contents _ := ⟨_, List.mem_singleton_self _, rfl⟩

/-- A submission is recorded as a `create` or as a `patch`. -/
theorem verb_call (x : Submission) : x.call.verb = .create ∨ x.call.verb = .patch := by
  cases x with
  | create => exact Or.inl rfl
  | patch => exact Or.inr rfl

/-- A submission is meant to change the store. -/
theorem writes_verb_call (x : Submission) : x.call.verb.writes = true := by
  rcases verb_call x with hverb | hverb <;> rw [hverb] <;> rfl

/-- A submission makes one request if it is not waited for. -/
private theorem makes_send (hdry : s.mode.dryRun = false) (x : Submission) :
    (submit x).Makes s t (x.send t).store [x.call] where
  recorded := x.calls_send t
  sequence := List.mem_cons_of_mem _ List.mem_cons_self
  dry htrue := by cases hdry.symm.trans htrue
  submitted call hcall _ := ⟨x, rfl, List.mem_singleton.1 hcall⟩
  watched call hcall hwatch := by
    -- A submission is no watch
    cases List.mem_singleton.1 hcall
    rcases verb_call x with hverb | hverb <;> cases hwatch.symm.trans hverb
  contents _ := ⟨x.call, List.mem_singleton_self _, writes_verb_call x⟩

/-- A submission that is waited for makes a watch after its request. -/
private theorem makes_watch (hwait : s.mode.shouldWait = true) {x : Submission} {object : Resource}
    (hreply : (x.send t).reply = .done (.ok object)) :
    (submit x).Makes s t (Store.watch x.type x.ns object.name (x.send t).store).store
      [x.call, ⟨.watch, x.type, x.ns, object.name⟩] where
  recorded := by
    show (x.send t).store.calls ++ [⟨.watch, x.type, x.ns, object.name⟩] = _
    rw [x.calls_send, List.append_assoc]
    rfl
  sequence := List.mem_cons_of_mem _ (List.mem_cons_of_mem _ List.mem_cons_self)
  dry hdry := by cases hdry.symm.trans (Mode.dryRun_of_shouldWait hwait)
  submitted call hcall hsubmitted := by
    rcases List.mem_cons.1 hcall with rfl | hcall
    · exact ⟨x, rfl, rfl⟩
    · -- The second request is the watch
      cases List.mem_singleton.1 hcall
      rcases hsubmitted with hsubmitted | hsubmitted <;> cases hsubmitted
  watched _ _ _ := ⟨hwait, x, object, rfl, hreply, rfl⟩
  contents _ := ⟨x.call, List.mem_cons_self, writes_verb_call x⟩

/-- The requests of a course are recorded after those before it. -/
theorem exists_made {course : Course} {t' : MemoryStore} (h : course.Leaves s t t') :
    ∃ made, course.Makes s t t' made := by
  cases course with
  | fail e | keep observed | print type name object =>
    cases h
    exact ⟨[], makes_nil List.mem_cons_self⟩
  | delete type ns name =>
    rw [Leaves] at h
    subst h
    cases hdry : s.mode.dryRun with
    | true => exact ⟨[], makes_nil List.mem_cons_self⟩
    | false => exact ⟨_, makes_delete hdry type ns name⟩
  | submit x =>
    cases h with
    | kept hdry => exact ⟨[], makes_nil List.mem_cons_self⟩
    | sent hdry => exact ⟨_, makes_send hdry x⟩
    | watched hwait hreply => exact ⟨_, makes_watch hwait hreply⟩

end Course

/-! ## Requests that lead to a course -/

/-- The server says that there is no such object, for whatever reason. -/
def Error.IsMissing (e : Error) : Prop :=
  ∃ op type location response, e = .remote op type location (.refused response) ∧
    response.code = 404

/-- What commands take for a missing object is what the server calls missing. -/
theorem Error.isNotFound_iff {e : Error} : e.isNotFound = true ↔ e.IsMissing := by
  constructor
  · intro h
    unfold isNotFound at h
    split at h
    · exact ⟨_, _, _, _, rfl, by simpa using h⟩
    · cases h
  · rintro ⟨op, type, location, response, rfl, hcode⟩
    simp [isNotFound, hcode]

namespace Command

/-- What has to be given for a new object. -/
theorem given_of_content {request : ChangeRequest} {files : Files} {changes : Builder.Changes}
    (hread : request.read files = .ok changes) {content : Builder.Content}
    (hcontent : changes.content = .ok content) :
    (∃ tag, request.tag = some tag ∧ tag ≠ "") ∧ ∃ path entries, request.order = some path ∧
      path ≠ "" ∧ Order.ofFile files path = .ok entries := by
  obtain ⟨htag, -, -, horder⟩ := ChangeRequest.read_eq_ok_iff.1 hread
  obtain ⟨tag, stack, store, order⟩ := changes
  -- Content has a tag and an order, or it is an error
  cases tag with
  | none => cases hcontent
  | some tag =>
    cases order with
    | none => cases hcontent
    | some order =>
      refine ⟨⟨tag, ChangeRequest.filter_eq_some_iff.1 htag.symm⟩, ?_⟩
      rcases horder with ⟨-, hnone⟩ | ⟨path, entries, hgiven, hne, hread, -⟩
      · cases hnone
      · exact ⟨path, entries, hgiven, hne, hread⟩

/-- The requests that lead from a store to another get objects at most, and whatever is made of
`next` after them is in an order that the command may make its requests in. -/
structure Leads (c : Command) (next : List (List Verb)) (s t : MemoryStore) (gets : List Call) :
    Prop where
  recorded : t.calls = s.calls ++ gets
  objects : t.objects = s.objects
  verbs : ∀ call ∈ gets, call.verb = .get
  sequence : ∀ made ∈ next, gets.map Call.verb ++ made ∈ c.sequences

namespace Takes

variable {differ : Differ} {files : Files} {s t : MemoryStore} {c : Command} {course : Course}

/-- A course may be taken at once. -/
private theorem leads_nil {next : List (List Verb)} (h : ∀ made ∈ next, made ∈ c.sequences) :
    Leads c next s s [] where
  recorded := (List.append_nil _).symm
  objects := rfl
  verbs _ hcall := absurd hcall List.not_mem_nil
  sequence := h

/-- A course may be taken after an object was asked for. -/
private theorem leads_get {next : List (List Verb)}
    (h : ∀ made ∈ next, .get :: made ∈ c.sequences) (type : ResourceType) (ns : Option String)
    (name : String) : Leads c next s (Store.get type ns name s).store [⟨.get, type, ns, name⟩] where
  recorded := calls_get type ns name s
  objects := objects_get type ns name s
  verbs call hcall := by
    cases List.mem_singleton.1 hcall
    rfl
  sequence := h

/-- Commands may make no request, unless they show an object. -/
private theorem nil_mem_sequences_of_rejects {e : Error} (h : c.Rejects files e) :
    [] ∈ c.sequences := by
  cases h with
  | emptyTag | order => exact List.mem_cons_self
  | changes hupdates hread => cases hupdates <;> exact List.mem_cons_self

/-- A command gets one object at most before it takes a course, and its course does what may be
done after that. -/
theorem exists_leads (h : c.Takes differ files s course t) :
    ∃ gets, Leads c course.sequences s t gets := by
  cases h with
  | reject h =>
    refine ⟨[], leads_nil ?_⟩
    simpa [Course.sequences] using nil_mem_sequences_of_rejects h
  | create => exact ⟨[], leads_nil fun _ hmade => hmade⟩
  | delete type ns name => exact ⟨[], leads_nil fun _ hmade => hmade⟩
  -- After a `get` that led nowhere, nothing follows
  | unread hupdates hread hreply hsave =>
    refine ⟨_, leads_get ?_ _ _ _⟩
    cases hupdates <;> simp [Course.sequences, sequences]
  | keep hupdates hread hreply hdiff =>
    refine ⟨_, leads_get ?_ _ _ _⟩
    cases hupdates <;> simp [Course.sequences, sequences]
  | patch hupdates hread hreply hdiff =>
    refine ⟨_, leads_get ?_ _ _ _⟩
    cases hupdates <;>
      simp [Course.sequences, sequences, Submission.call, Call.verb, CallKind.verb]
  | incomplete account ns name hread hreply he hcontent =>
    refine ⟨_, leads_get ?_ _ _ _⟩
    simp [Course.sequences, sequences]
  | new account ns name hread hreply he hcontent =>
    refine ⟨_, leads_get ?_ _ _ _⟩
    simp [Course.sequences, sequences, Submission.call, Call.verb, CallKind.verb]
  | missing type ns name hreply | print type ns name hreply =>
    refine ⟨_, leads_get ?_ _ _ _⟩
    simp [Course.sequences, sequences]

/-- What is patched was got, and is different. -/
private theorem of_patch {type : ResourceType} {ns : Option String} {observed desired : Resource}
    {difference : MergePatch}
    (h : c.Takes differ files s (.submit (.patch type ns observed desired difference)) t) :
    difference.members ≠ [] ∧ ∃ type ns name request, c.Updates type ns name request ∧
      (Store.get type ns name s).reply = .done (.ok observed) := by
  cases h with
  | patch hupdates hread hreply hdiff =>
    refine ⟨fun hnil => ?_, _, _, _, _, hupdates, hreply⟩
    rw [MergePatch.isEmpty, hnil] at hdiff
    cases hdiff

/-- What is saved by creating it is missing, and its content is given. -/
private theorem of_create {account : Builder.Account} {ns : Option String} {name : String}
    {request : ChangeRequest} {type : ResourceType} {ns' : Option String} {object : Resource}
    (h : (Command.save account ns name request).Takes differ files s
      (.submit (.create type ns' object)) t) :
    (∃ e : Error, (Store.get account.type ns name s).reply = .done (.error e) ∧ e.IsMissing) ∧
      (∃ tag, request.tag = some tag ∧ tag ≠ "") ∧
      ∃ path entries, request.order = some path ∧ path ≠ "" ∧
        Order.ofFile files path = .ok entries := by
  cases h with
  | new _ _ _ hread hreply he hcontent =>
    exact ⟨⟨_, hreply, Error.isNotFound_iff.1 he⟩, given_of_content hread hcontent⟩

section Made

variable {settings : Settings} {t' : MemoryStore} {made : List Call}
  (htakes : c.Takes differ files s course t) (hmakes : course.Makes settings t t' made)
  {call : Call} (hcall : call ∈ made)
include htakes hmakes hcall

/-- A patch of a course has members, and the object that it is for was got. -/
theorem patched_of_made {body : Json} (hbody : call.kind = .patch body) :
    (∃ members, body = .obj members ∧ members ≠ []) ∧
    ∃ type ns name request observed, c.Updates type ns name request ∧
      (Store.get type ns name s).reply = .done (.ok observed) := by
  have hverb : call.verb = .patch := by rw [Call.verb, hbody]; rfl
  obtain ⟨x, rfl, rfl⟩ := hmakes.submitted call hcall (Or.inr hverb)
  cases x with
  | create => cases hbody
  | patch type ns observed desired difference =>
    cases hbody
    obtain ⟨hne, type, ns, name, request, hupdates, hreply⟩ := htakes.of_patch
    exact ⟨⟨_, rfl, hne⟩, type, ns, name, request, observed, hupdates, hreply⟩

/-- An object that `save` creates is missing, and all that a new one takes is given. -/
theorem created_of_made {account : Builder.Account} {ns : Option String} {name : String}
    {request : ChangeRequest} (hsave : c = .save account ns name request)
    (hverb : call.verb = .create) :
    (∃ e : Error, (Store.get account.type ns name s).reply = .done (.error e) ∧ e.IsMissing) ∧
      (∃ tag, request.tag = some tag ∧ tag ≠ "") ∧
      ∃ path entries, request.order = some path ∧ path ≠ "" ∧
        Order.ofFile files path = .ok entries := by
  obtain ⟨x, rfl, rfl⟩ := hmakes.submitted call hcall (Or.inl hverb)
  cases x with
  | patch => cases hverb
  | create type ns object =>
    rw [hsave] at htakes
    exact htakes.of_create

end Made

/-- An object that can not be got ends an update, unless it is only missing and the update is to
save it. -/
theorem of_get_error {type : ResourceType} {ns : Option String} {name : String}
    {request : ChangeRequest} (hupdates : c.Updates type ns name request)
    {changes : Builder.Changes} (hread : request.read files = .ok changes) {e : Error}
    (hreply : (Store.get type ns name s).reply = .done (.error e))
    (hsave : ∀ account, c = .save account ns name request → e.isNotFound = false)
    (h : c.Takes differ files s course t) :
    course = .fail e ∧ t = (Store.get type ns name s).store := by
  cases h with
  -- The request was read, so the command is not rejected
  | reject hrejects =>
    cases hrejects with
    | emptyTag | order => cases hupdates
    | changes hupdates' hread' =>
      obtain ⟨rfl, rfl, rfl, rfl⟩ := hupdates.unique hupdates'
      cases hread.symm.trans hread'
  | unread hupdates' _ hreply' _ =>
    obtain ⟨rfl, rfl, rfl, rfl⟩ := hupdates.unique hupdates'
    cases hreply.symm.trans hreply'
    exact ⟨rfl, rfl⟩
  | keep hupdates' _ hreply' _ | patch hupdates' _ hreply' _ =>
    obtain ⟨rfl, rfl, rfl, rfl⟩ := hupdates.unique hupdates'
    cases hreply.symm.trans hreply'
  | incomplete account ns name _ hreply' he _ | new account ns name _ hreply' he _ =>
    -- The object is only missing
    obtain ⟨rfl, rfl, rfl, rfl⟩ := hupdates.unique (.save account rfl)
    cases hreply.symm.trans hreply'
    cases (hsave account rfl).symm.trans he
  | create | delete | missing | print => cases hupdates

end Takes

/-! ## Refused commands -/

/-- The order file that a command reads; of a change, an empty path is none. -/
def orderFile? : Command → Option String
  | .create _ _ _ _ _ _ path => some path
  | .patch _ _ _ request | .save _ _ _ request => request.order.filter (· ≠ "")
  | .delete .. | .get .. => none

/-- A new builder without a tag, or an order file that can not be read or has no entries. -/
inductive IsRefused (files : Files) : Command → Prop
  | tag (account : Builder.Account) (ns : Option String) (name stack store path : String) :
    IsRefused files (.create account ns name "" stack store path)
  | order {c : Command} {path : String} (h : c.orderFile? = some path)
    (hfile : ∀ entries, Order.ofFile files path = .ok entries → entries = []) : IsRefused files c

/-- A refused command ends with an error when its files and values are looked at. -/
theorem IsRefused.exists_rejects {files : Files} {c : Command} (h : c.IsRefused files) :
    ∃ e, c.Rejects files e := by
  cases h with
  | tag account ns name stack store path =>
    exact ⟨_, .emptyTag account ns name stack store path⟩
  | order h hfile =>
    rename_i path
    -- An order without entries is refused like one that can not be read
    have hordered : ∃ e, Order.ofFile files path = .error e := by
      cases horder : Order.ofFile files path with
      | error e => exact ⟨e, rfl⟩
      | ok entries => exact absurd (hfile entries horder) (Order.isNormal_ofFile horder).ne_nil
    obtain ⟨e, he⟩ := hordered
    cases c with
    | create account ns name tag stack store order =>
      cases h
      by_cases htag : tag = ""
      · subst htag
        exact ⟨_, .emptyTag account ns name stack store path⟩
      · exact ⟨e, Rejects.order account ns name stack store htag he⟩
    | patch type ns name request => exact ⟨e, .changes .patch (ChangeRequest.read_error h he)⟩
    | save account ns name request =>
      exact ⟨e, .changes (.save account rfl) (ChangeRequest.read_error h he)⟩
    | delete | get => cases h

end Command

/-! ## Invocations -/

namespace Invocation

/-- The requests that an invocation makes from a store on, and what has led to them. -/
structure Protocol (i : Invocation) (files : Files) (s : MemoryStore) (e : Ending MemoryStore)
    (calls : List Call) : Prop where
  recorded : e.store.calls = s.calls ++ calls
  sequence : calls.map Call.verb ∈ i.command.sequences
  /-- Dry runs change nothing. -/
  dry : i.mode.dryRun = true → ∀ call ∈ calls, call.verb.writes = false
  /-- What is patched was got, and there is something to patch. -/
  patched : ∀ call ∈ calls, ∀ body, call.kind = .patch body →
    (∃ members, body = .obj members ∧ members ≠ []) ∧
    ∃ type ns name request observed, i.command.Updates type ns name request ∧
      (Store.get type ns name s).reply = .done (.ok observed)
  /-- What is saved is created only if it is missing, and if all is given that this takes. -/
  created : ∀ account ns name request, i.command = .save account ns name request →
    ∀ call ∈ calls, call.verb = .create →
      (∃ error : Error, (Store.get account.type ns name s).reply = .done (.error error) ∧
        error.IsMissing) ∧
      (∃ tag, request.tag = some tag ∧ tag ≠ "") ∧
      ∃ path entries, request.order = some path ∧ path ≠ "" ∧
        Order.ofFile files path = .ok entries
  /-- What can not be got is not changed. -/
  unread : ∀ type ns name request error, i.command.Updates type ns name request →
    (∃ changes, request.read files = .ok changes) →
    (Store.get type ns name s).reply = .done (.error error) →
    (∀ account, i.command = .save account ns name request → ¬ error.IsMissing) →
    calls = [⟨.get, type, ns, name⟩] ∧ e.halt = some (.failed error)
  refused : i.command.IsRefused files → calls = [] ∧ ∃ error, e.halt = some (.failed error)
  /-- Only an object that was accepted is watched, and only if the mode says so. -/
  watched : ∀ call ∈ calls, call.verb = .watch →
    (i.mode.wait = true ∧ i.mode.dryRun = false ∧ i.mode.output = none) ∧
    ∃ x t object, i.command.Takes .standard files s (.submit x) t ∧
      (x.send t).reply = .done (.ok object) ∧
      e.store = (Store.watch x.type x.ns object.name (x.send t).store).store
  contents : e.store.objects ≠ s.objects → ∃ call ∈ calls, call.verb.writes = true

/-- The requests of an invocation. -/
theorem perform_protocol {i : Invocation} (h : i.mode.IsSupported) (files : Files)
    (interrupt : Option Nat) (out err : Sink) (s : MemoryStore) :
    ∃ calls, i.Protocol files s (i.perform files interrupt out err s) calls := by
  obtain ⟨router, hrouter⟩ := h.exists_router .standard out err
  let settings : Settings := { mode := i.mode, patience := ⟨i.timeout, interrupt⟩ }
  obtain ⟨course, u, htakes, -, hrun⟩ :=
    i.command.exists_course files settings { store := s, router }
  have hperform := (perform_eq hrouter files interrupt s).trans (congrArg Ending.ofRun hrun)
  generalize i.perform files interrupt out err s = e at hperform
  have hleaves : course.Leaves settings u.store e.store := by
    rw [hperform]
    exact course.leaves_action settings u
  obtain ⟨gets, hleads⟩ := htakes.exists_leads
  obtain ⟨made, hmakes⟩ := Course.exists_made hleaves
  -- All that is no `get` is a request of the course
  have hmade : ∀ {call verb}, call ∈ gets ++ made → call.verb = verb → verb ≠ .get →
      call ∈ made := by
    intro call verb hcall hverb hget
    rcases List.mem_append.1 hcall with hcall | hcall
    · exact absurd (hverb.symm.trans (hleads.verbs call hcall)) hget
    · exact hcall
  have hrecorded : e.store.calls = s.calls ++ (gets ++ made) := by
    rw [hmakes.recorded, hleads.recorded, List.append_assoc]
  refine ⟨gets ++ made, {
    recorded := hrecorded, sequence := ?sequence, dry := ?dry, patched := ?patched,
    created := ?created, unread := ?unread, refused := ?refused, watched := ?watched,
    contents := ?contents }⟩
  case sequence =>
    rw [List.map_append]
    exact hleads.sequence _ hmakes.sequence
  case dry =>
    intro hdry call hcall
    rw [hmakes.dry hdry, List.append_nil] at hcall
    rw [hleads.verbs call hcall]
    rfl
  case patched =>
    intro call hcall body hbody
    have hverb : call.verb = .patch := by rw [Call.verb, hbody]; rfl
    exact htakes.patched_of_made hmakes (hmade hcall hverb (by decide)) hbody
  case created =>
    intro account ns name request hsave call hcall hverb
    exact htakes.created_of_made hmakes (hmade hcall hverb (by decide)) hsave hverb
  case unread =>
    rintro type ns name request error hupdates ⟨changes, hread⟩ hreply hsave
    obtain ⟨rfl, hu⟩ := htakes.of_get_error hupdates hread hreply fun account hcommand => by
      rw [← Bool.not_eq_true, Error.isNotFound_iff]
      exact hsave account hcommand
    -- What ends a command makes no request of its own
    have hstore : e.store = (Store.get type ns name s).store := by
      rw [hperform, ← hu]
      rfl
    rw [hstore, calls_get] at hrecorded
    refine ⟨(List.append_cancel_left hrecorded).symm, ?_⟩
    rw [hperform]
    rfl
  case refused =>
    intro hrefused
    obtain ⟨error, hrejects⟩ := hrefused.exists_rejects
    rw [← hrun, Command.run_of_rejects hrejects] at hperform
    have hstore : e.store = s := by rw [hperform]; rfl
    rw [hstore] at hrecorded
    refine ⟨List.self_eq_append_right.1 hrecorded, error, ?_⟩
    rw [hperform]
    rfl
  case watched =>
    intro call hcall hverb
    obtain ⟨hwait, x, object, rfl, hreply, hstore⟩ :=
      hmakes.watched call (hmade hcall hverb (by decide)) hverb
    refine ⟨?_, x, u.store, object, htakes, hreply, hstore⟩
    simpa [Mode.shouldWait, Mode.outputRequested, settings, and_assoc] using hwait
  case contents =>
    intro hcontents
    obtain ⟨call, hcall, hwrites⟩ := hmakes.contents (hleads.objects ▸ hcontents)
    exact ⟨call, List.mem_append_right _ hcall, hwrites⟩

/-- A patch that has to be waited for makes all requests that a patch may make. -/
theorem perform_protocol_patch :
    let stored : Json := .obj [("metadata", .obj [("name", .str "base")]),
      ("spec", .obj [("stack", .obj [("name", .str "tiny")]), ("tag", .str "r/base")])]
    let i : Invocation :=
      ⟨.patch .builder none "base" { stack := some "full" }, { wait := true }, .ofSeconds 600⟩
    let store : MemoryStore := { objects := [(.ofLocation .builder none "base", stored)] }
    i.mode.IsSupported ∧ ∃ calls, i.Protocol default store (i.perform default none {} {} store) calls ∧
      calls.map Call.verb = [.get, .patch, .watch] := by
  intro stored i store
  have hsupported : i.mode.IsSupported := List.mem_cons_self
  obtain ⟨calls, hprotocol⟩ := perform_protocol hsupported default none {} {} store
  refine ⟨hsupported, calls, hprotocol, ?_⟩
  have hcalls : (i.perform default none {} {} store).store.calls = calls := hprotocol.recorded
  rw [← hcalls]
  decide +kernel

end Invocation

end BuilderControl
