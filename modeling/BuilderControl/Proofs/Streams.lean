import BuilderControl.Proofs.Courses
import BuilderControl.Proofs.Foretelling
import BuilderControl.Proofs.Reporting

/-!
# What invocations write

With an output format, an invocation that succeeds prints one document, unless it deletes.  Without
one, it tells one result, perhaps after it has told that it waits.  Nothing is written to standard
error, and an invocation that fails has at most told that it waits.

## Key results

- `Resource.IsPrintable.exists_printed`: objects are printed with an identity
- `Course.prints_action`, `Course.tells_action`: what a course writes
- `Invocation.perform_streams`: what an invocation writes
-/

namespace BuilderControl

open MemoryStore

/-! ## Objects with an identity -/

/-- A document states what it is. -/
def Json.HasIdentity (document : Json) : Prop :=
  ∃ version kind, document.get? "apiVersion" = some (.str version) ∧
    document.get? "kind" = some (.str kind) ∧ (Identity.mk version kind).isEmpty = false

/-- An object of a type; objects of core types state their identity. -/
def Resource.IsPrintable (r : Resource) : Prop :=
  ∃ type, r.type = some type ∧ (type.isCore = true →
    r.document.get? "apiVersion" = some (.str type.apiVersion) ∧
    r.document.get? "kind" = some (.str type.name))

/-- What a record writes under the key of a field with a fixed text. -/
theorem Schema.get?_decode_fixed {shape : RecordShape} {fields : List (FieldInfo × Schema)}
    (hp : shape.positional = false) (hi : shape.identified = false) (hk : shape.keepsRest = false)
    (hd : DistinctKeys fields) {j x : Json}
    (h : decode .memory (.record shape fields []) j = .ok x) {f : FieldInfo × Schema}
    (hf : f ∈ fields) {text : String} (hfixed : f.1.presence = .fixed text) :
    x.get? f.1.key = some (.str text) := by
  simp only [decode] at h
  split at h
  · obtain ⟨gathered, hgathered, h⟩ := Except.bind_ok_iff.1 h
    obtain ⟨written, hwritten, h⟩ := Except.bind_ok_iff.1 h
    obtain ⟨further, hfurther, h⟩ := Except.bind_ok_iff.1 h
    obtain ⟨more, hmore, h⟩ := Except.bind_ok_iff.1 h
    cases h
    cases hmore
    rw [Except.mapError_ok_iff] at hwritten
    -- All fields are settled, and the one at hand to its text
    let settled : FieldInfo × Schema → Option Json := fun f =>
      (settle f.1 (Entries.get? gathered.found f.1.key).join).toOption.join
    have hsettled : ∀ f ∈ fields,
        settle f.1 (Entries.get? gathered.found f.1.key).join = .ok (settled f) := by
      intro f hf
      obtain ⟨w, hw⟩ := of_settleAll_ok hwritten f hf
      simp [settled, hw, Except.toOption]
    have htext : settled f = some (.str text) := by
      simp [settled, settle, hfixed, Except.toOption]
    cases hwritten.symm.trans (settleAll_ok hsettled)
    rw [get?_assemble, get?_assemble_of_drops hi hk, List.nil_append, get?_written hd hf, htext]
    rfl
  · simp only [hp] at h
    cases h
  · cases h

/-- Objects of core types are read with the identity of their type. -/
private theorem get?_decode_core {type : ResourceType} {fields : List (FieldInfo × Schema)}
    (hd : Schema.DistinctKeys ((⟨"apiVersion", .fixed type.apiVersion⟩, .text) ::
      (⟨"kind", .fixed type.name⟩, .text) ::
      Schemas.lenient "metadata" (.obj []) Schemas.objectMeta :: fields)) {j x : Json}
    (h : Schema.decode .memory (Schemas.core type fields) j = .ok x) :
    x.get? "apiVersion" = some (.str type.apiVersion) ∧ x.get? "kind" = some (.str type.name) := by
  constructor
  · exact Schema.get?_decode_fixed (f := (⟨"apiVersion", .fixed type.apiVersion⟩, .text))
      rfl rfl rfl hd h List.mem_cons_self rfl
  · exact Schema.get?_decode_fixed (f := (⟨"kind", .fixed type.name⟩, .text))
      rfl rfl rfl hd h (List.mem_cons_of_mem _ List.mem_cons_self) rfl

/-- What is read as an object can be printed. -/
theorem Resource.isPrintable_of_ofJson {type : ResourceType} {j : Json} {r : Resource}
    (h : Resource.ofJson (some type) j = .ok r) : r.IsPrintable := by
  obtain ⟨htype, hread⟩ := Resource.ofJson_eq_ok_iff.1 h
  refine ⟨type, htype, fun hcore => ?_⟩
  cases type with
  | secret => exact @get?_decode_core .secret _ (by decide) _ _ hread
  | serviceAccount => exact @get?_decode_core .serviceAccount _ (by decide) _ _ hread
  | image | builder | clusterBuilder | clusterStack | clusterStore => cases hcore

/-- An object that can be printed is printed with an identity. -/
theorem Resource.IsPrintable.exists_printed {r : Resource} (h : r.IsPrintable) :
    ∃ document, Router.printed .standard r = .ok document ∧ document.HasIdentity := by
  obtain ⟨type, htype, hcore⟩ := h
  by_cases hempty : r.identity.isEmpty = true
  · -- The identity of the type is set
    refine ⟨(r.document.set "apiVersion" (.str type.apiVersion)).set "kind" (.str type.name), ?_,
      type.apiVersion, type.name, ?_, ?_, type.isEmpty_identity⟩
    · simp only [Router.printed, hempty, htype, Registry.lookup_standard]
      rfl
    · rw [Json.get?_set, if_neg (by simp), Json.get?_set, if_pos rfl]
    · rw [Json.get?_set, if_pos rfl]
  · rw [Bool.not_eq_true] at hempty
    refine ⟨r.document, by simp only [Router.printed, hempty]; rfl, ?_⟩
    cases htypeCore : type.isCore with
    | true =>
      obtain ⟨hversion, hkind⟩ := hcore htypeCore
      exact ⟨_, _, hversion, hkind, type.isEmpty_identity⟩
    | false =>
      -- The object states an identity itself
      have hstated : r.identity = Resource.identity.stated r := by
        simp only [Resource.identity, htype, htypeCore, Bool.false_eq_true, if_false]
      rw [hstated, Resource.identity.stated] at hempty
      split at hempty
      · rename_i version kind hversion hkind
        exact ⟨version, kind, hversion, hkind, hempty⟩
      · cases hempty

/-- What a change is answered with was read. -/
theorem Submission.isPrintable_of_send {x : Submission} {s : MemoryStore} {r : Resource}
    (h : (x.send s).reply = .done (.ok r)) : r.IsPrintable := by
  cases x with
  | create type ns object => exact Resource.isPrintable_of_ofJson (of_create_ok h)
  | patch type ns observed desired difference =>
    obtain ⟨t, hact, -⟩ := of_answer_ok h
    simp only at hact
    split at hact
    · cases hact
    · injection hact with hact
      exact Resource.isPrintable_of_ofJson (Except.mapError_ok_iff.1 (Prod.mk.inj hact).1)

/-- A new builder states its own type, so it can be printed. -/
theorem Builder.isPrintable_new (account : Builder.Account) (ns : Option String) (name : String)
    (content : Builder.Content) : (Builder.new account ns name content).IsPrintable := by
  refine ⟨account.type, rfl, fun hcore => ?_⟩
  cases account <;> cases hcore

/-- Changing a builder keeps what identifies it, so the result can be printed as well. -/
theorem Builder.Changes.isPrintable_apply (c : Builder.Changes) {r : Resource}
    (h : r.IsPrintable) : (c.apply r).IsPrintable := by
  obtain ⟨type, htype, hcore⟩ := h
  refine ⟨type, htype, fun h => ?_⟩
  rw [document_apply, Json.get?_set, Json.get?_set, if_neg (by simp), if_neg (by simp)]
  exact hcore h

namespace Course

/-- What a course prints on its own can be printed. -/
def IsPrintable : Course → Prop
  | keep object | print _ _ object => object.IsPrintable
  | submit x => x.object.IsPrintable
  | fail _ | delete .. => True

end Course

/-- Whatever a command comes to print was read from the store or made by the command itself. -/
theorem Command.Takes.isPrintable {differ : Differ} {files : Files} {s t : MemoryStore}
    {c : Command} {course : Course} (h : c.Takes differ files s course t) :
    course.IsPrintable := by
  -- Whatever was got from the store was read from a stored document.
  have hgot : ∀ {type ns name observed},
      (Store.get type ns name s).reply = .done (.ok observed) → observed.IsPrintable := by
    intro type ns name observed hreply
    obtain ⟨_, -, hread, -⟩ := of_get_ok hreply
    exact Resource.isPrintable_of_ofJson hread
  cases h with
  | reject | unread | incomplete | delete | missing => trivial
  | create account ns name | new account ns name => exact Builder.isPrintable_new account ns name _
  | keep _ _ hreply => exact hgot hreply
  | patch _ _ hreply => exact Builder.Changes.isPrintable_apply _ (hgot hreply)
  | print _ _ _ hreply => exact hgot hreply

/-! ## Printed documents -/

namespace Course

open BuilderControl.Action Engine

/-- What is told in the end. -/
def text? : Course → Option String
  | fail _ => none
  | keep _ => some keepText
  | submit x => some x.text
  | delete _ _ name => some ("\"" ++ name ++ "\" deleted")
  | print type name object => some (printText type name object)

/-- Courses of commands that change something, or would. -/
def mutates : Course → Bool
  | print .. => false
  | _ => true

/-- Courses that print no object. -/
def deletes : Course → Bool
  | delete .. => true
  | _ => false

/-- What a course writes to standard output if objects are printed. -/
inductive Prints (course : Course) (format : Format) (out : Sink) : Except Halt Unit → Sink → Prop
  | failed (halt : Halt) : Prints course format out (.error halt) out
  | deleted {text : String} (htext : course.text? = some text) (h : course.deletes = true) :
    Prints course format out (.ok ()) out
  | printed {text : String} (htext : course.text? = some text) (h : course.deletes = false)
    {document : Json} (hdocument : document.HasIdentity) :
    Prints course format out (.ok ()) (out.writeText (format.document document)).2

end Course

/-- A printed object is one text. -/
theorem Router.emitObjects_of_isPrintable {r : Router} {format : Format}
    (hformat : r.format = some format) (hroom : r.out.limit = none)
    (hregistry : r.registry = .standard) {object : Resource} (h : object.IsPrintable) :
    ∃ document : Json, document.HasIdentity ∧ r.emitObjects [object] =
      (.ok (), { r with out := (r.out.writeText (format.document document)).2 }) := by
  obtain ⟨document, hprinted, hidentity⟩ := h.exists_printed
  rw [← hregistry] at hprinted
  refine ⟨document, hidentity, ?_⟩
  rw [emitObjects_of_unlimited hroom hprinted]
  simp only [hformat]

namespace Engine

open BuilderControl.Action

/-- Where objects are printed, telling a result prints the object only. -/
theorem run_tell_printing {w : World MemoryStore} {format : Format}
    (hformat : w.router.format = some format) (hroom : w.router.out.limit = none)
    (hregistry : w.router.registry = .standard) {object : Resource} (h : object.IsPrintable)
    (text : String) : ∃ document : Json, document.HasIdentity ∧
      (tell object text).run w = (.ok (), { w with router := { w.router with
        out := (w.router.out.writeText (format.document document)).2 } }) := by
  obtain ⟨document, hprinted, hidentity⟩ := h.exists_printed
  rw [← hregistry] at hprinted
  refine ⟨document, hidentity, ?_⟩
  rw [run_tell hroom hprinted text]
  simp only [Router.told, hformat]

end Engine

/-- A run changes nothing of a router but what is in its standard output, and `P` holds of how the
run ends and of what is there then. -/
def WritesOut (router : Router) (P : Except Halt Unit → Sink → Prop)
    (run : Except Halt Unit × World MemoryStore) : Prop :=
  ∃ out, run.2.router = { router with out := out } ∧ P run.1 out

namespace Course

open BuilderControl.Action Engine

section Printing

variable {course : Course} {w : World MemoryStore} {format : Format}
  (hformat : w.router.format = some format) (hroom : w.router.out.limit = none)
  (hregistry : w.router.registry = .standard)
include hformat hroom hregistry

/-- A result that is told prints the object that it is about. -/
private theorem prints_tell {v : World MemoryStore} (hrouter : v.router = w.router)
    {object : Resource} (hobject : object.IsPrintable) {text : String}
    (htext : course.text? = some text) (hdeletes : course.deletes = false) :
    WritesOut w.router (course.Prints format w.router.out) ((tell object text).run v) := by
  rw [← hrouter] at hformat hroom hregistry ⊢
  obtain ⟨document, hidentity, hrun⟩ := run_tell_printing hformat hroom hregistry hobject text
  rw [hrun]
  exact ⟨_, rfl, .printed htext hdeletes hidentity⟩

/-- What a course writes if objects are printed. -/
theorem prints_action {s : Settings} (hrequested : s.mode.outputRequested = true)
    (hcourse : course.IsPrintable) :
    WritesOut w.router (course.Prints format w.router.out) ((course.action s).run w) := by
  cases course with
  | fail e => exact ⟨_, rfl, .failed _⟩
  | keep observed => exact prints_tell hformat hroom hregistry rfl hcourse rfl rfl
  | submit x =>
    -- With an output format, nothing is waited for
    have hwait : s.mode.shouldWait = false := by simp [Mode.shouldWait, hrequested]
    obtain ⟨v, hrouter, ⟨halt, hrun⟩ | ⟨object, hobject, hrun⟩⟩ :=
      run_submit_of_not_shouldWait hwait x w
    · rw [action, hrun]
      exact ⟨_, hrouter, .failed halt⟩
    · have hprintable : object.IsPrintable := by
        rcases hobject with rfl | hreply
        · exact hcourse
        · exact Submission.isPrintable_of_send hreply
      rw [action, hrun]
      exact prints_tell hformat hroom hregistry hrouter hprintable rfl rfl
  | delete type ns name =>
    obtain ⟨v, hrouter, ⟨halt, hrun⟩ | hrun⟩ := run_delete s type ns name w
    · rw [action, hrun]
      exact ⟨_, hrouter, .failed halt⟩
    · -- A result without an object is not printed
      have hresult : (emit (·.emitResult ("\"" ++ name ++ "\" deleted"))).run v =
          (.ok (), v) := by
        rw [run_emit, Router.emitResult, hrouter]
        simp only [hformat]
        rw [← hrouter]
        rfl
      rw [action, hrun, hresult]
      exact ⟨_, hrouter, .deleted rfl rfl⟩
  | print type name object =>
    obtain ⟨document, hidentity, hobjects⟩ :=
      Router.emitObjects_of_isPrintable hformat hroom hregistry hcourse
    simp only [action, hrequested, if_true]
    rw [run_emit, hobjects]
    exact ⟨_, rfl, .printed rfl rfl hidentity⟩

end Printing

end Course

/-! ## Told results -/

/-- What is told of an object before it is waited for. -/
def waitText (type : ResourceType) (object : Resource) : String :=
  Router.line ("Waiting for " ++ (type.name ++ " \"" ++ object.name ++ "\"") ++
    " to become ready...") false

/-- With room for everything, a status line is written in full where text is shown. -/
theorem Router.emitStatus_of_unlimited {r : Router} (hformat : r.format = none)
    (hroom : r.out.limit = none) (text : String) :
    r.emitStatus text = (.ok (), { r with out := (r.out.writeText (line text r.dryRun)).2 }) := by
  have htaken : (r.out.writeText (line text r.dryRun)).1 = true := Sink.fits_of_unlimited hroom _
  simp only [emitStatus, hformat, writeOut, htaken, written, if_true]

/-- With room for everything, a plain line is written in full where text is shown. -/
theorem Router.emitLine_of_unlimited {r : Router} (hformat : r.format = none)
    (hroom : r.out.limit = none) (text : String) :
    r.emitLine text = (.ok (), { r with out := (r.out.writeText (line text false)).2 }) := by
  have htaken : (r.out.writeText (line text false)).1 = true := Sink.fits_of_unlimited hroom _
  simp only [emitLine, hformat, writeOut, htaken, written, if_true]

namespace Engine

open BuilderControl.Action

/-- Where text is shown, telling a result shows the result only. -/
theorem run_tell_narrative {w : World MemoryStore} (hformat : w.router.format = none)
    (hroom : w.router.out.limit = none) (object : Resource) (text : String) :
    (tell object text).run w = (.ok (), { w with router := { w.router with
      out := (w.router.out.writeText (Router.line text w.router.dryRun)).2 } }) := by
  have hobjects : (emit (·.emitObjects [object])).run w = (.ok (), w) := by
    rw [run_emit, Router.emitObjects]
    simp only [hformat]
    rfl
  rw [tell, run_bind_of_ok hobjects, run_emit, Router.emitResult_of_unlimited hroom]
  simp only [hformat]
  rfl

/-- Following a watch writes nothing. -/
theorem router_watch (patience : Patience) (type : ResourceType) (ns : Option String)
    (name : String) (w : World MemoryStore) :
    ((watch patience type ns name).run w).2.router = w.router := by
  rw [run_watch]
  split <;> rfl

/-- Waiting shows that it waits. -/
theorem router_converge {s : Settings} (hwait : s.mode.shouldWait = true) {w : World MemoryStore}
    (hformat : w.router.format = none) (hroom : w.router.out.limit = none)
    (hdry : w.router.dryRun = false) (type : ResourceType) (ns : Option String)
    (object : Resource) :
    ((converge s type ns object).run w).2.router =
      { w.router with out := (w.router.out.writeText (waitText type object)).2 } := by
  have hstatus : ∀ logs : List LogEntry,
      (emit (·.emitStatus ("Waiting for " ++ (type.name ++ " \"" ++ object.name ++ "\"") ++
        " to become ready..."))).run { w with logs := logs } =
          (.ok (), { w with logs := logs, router := { w.router with
            out := (w.router.out.writeText (waitText type object)).2 } }) := by
    intro logs
    rw [run_emit, Router.emitStatus_of_unlimited hformat hroom, waitText, ← hdry]
    rfl
  simp only [converge, hwait, Bool.not_true, Bool.false_eq_true, if_false]
  rw [run_bind_of_ok (run_log _ _ w), run_bind_of_ok (hstatus _)]
  -- What comes after is the watch
  exact router_watch s.patience type ns object.name _

end Engine

namespace Course

open BuilderControl.Action Engine

/-- What a course writes to standard output if text is shown. -/
inductive Tells (s : Settings) (course : Course) (t : MemoryStore) (out : Sink) :
    Except Halt Unit → Sink → Prop
  | failed (halt : Halt) : Tells s course t out (.error halt) out
  | told {text : String} (h : course.text? = some text) : Tells s course t out (.ok ())
      (out.writeText (Router.line text (course.mutates && s.mode.dryRun))).2
  /-- A change was accepted, but the wait for it has failed. -/
  | gaveUp {x : Submission} {object : Resource} (halt : Halt) (h : course = .submit x)
    (hwait : s.mode.shouldWait = true) (hreply : (x.send t).reply = .done (.ok object)) :
    Tells s course t out (.error halt) (out.writeText (waitText x.type object)).2
  | waited {x : Submission} {object : Resource} (h : course = .submit x)
    (hwait : s.mode.shouldWait = true) (hreply : (x.send t).reply = .done (.ok object)) :
    Tells s course t out (.ok ())
      (out.writeText (waitText x.type object ++ Router.line x.text false)).2

section Telling

variable {s : Settings} {course : Course} {w : World MemoryStore}
  (hdry : w.router.dryRun = s.mode.dryRun) (hformat : w.router.format = none)
  (hroom : w.router.out.limit = none)
include hdry hformat hroom

/-- A result that is told is one line. -/
private theorem tells_tell {v : World MemoryStore} (hrouter : v.router = w.router)
    (object : Resource) {text : String} (htext : course.text? = some text)
    (hmutates : course.mutates = true) :
    WritesOut w.router (course.Tells s w.store w.router.out) ((tell object text).run v) := by
  rw [← hrouter] at hformat hroom hdry ⊢
  rw [run_tell_narrative hformat hroom object text, hdry]
  have htold : course.Tells s w.store v.router.out (.ok ()) _ := .told htext
  rw [hmutates, Bool.true_and] at htold
  exact ⟨_, rfl, htold⟩

/-- A change that was accepted and is waited for: that is told first, and the result only if the
wait does not fail. -/
private theorem tells_report (hwait : s.mode.shouldWait = true) {x : Submission} {object : Resource}
    (hreply : (x.send w.store).reply = .done (.ok object)) :
    WritesOut w.router ((Course.submit x).Tells s w.store w.router.out)
      ((report s x.type x.ns object x.text).run (w.asked x.send)) := by
  have hreal := Mode.dryRun_of_shouldWait hwait
  have hconverge : ((converge s x.type x.ns object).run (w.asked x.send)).2.router =
      { w.router with out := (w.router.out.writeText (waitText x.type object)).2 } :=
    router_converge (w := w.asked x.send) hwait hformat hroom (hdry.trans hreal) x.type x.ns object
  rw [Engine.report, run_bind]
  revert hconverge
  cases (converge s x.type x.ns object).run (w.asked x.send) with
  | mk result u =>
    intro hrouter
    change u.router = _ at hrouter
    cases result with
    | error halt => exact ⟨_, hrouter, .gaveUp halt rfl hwait hreply⟩
    | ok object' =>
      -- The result is appended to what was told before
      have hroom' := Sink.limit_writeText hroom (waitText x.type object)
      have htext : (tell object' x.text).run u = (.ok (), { u with router := { w.router with
          out := (w.router.out.writeText
            (waitText x.type object ++ Router.line x.text w.router.dryRun)).2 } }) := by
        rw [run_tell_narrative (by rw [hrouter]; exact hformat) (by rw [hrouter]; exact hroom'),
          hrouter, ← Sink.writeText_append]
      have hwaited : (Course.submit x).Tells s w.store w.router.out (.ok ()) _ :=
        .waited rfl hwait hreply
      rw [← hreal, ← hdry] at hwaited
      simp only [htext]
      exact ⟨_, rfl, hwaited⟩

/-- What a submission writes if text is shown. -/
private theorem tells_submit (x : Submission) :
    WritesOut w.router ((Course.submit x).Tells s w.store w.router.out)
      ((Engine.submit s x).run w) := by
  cases hwait : s.mode.shouldWait with
  | false =>
    obtain ⟨v, hrouter, ⟨halt, hrun⟩ | ⟨object, -, hrun⟩⟩ := run_submit_of_not_shouldWait hwait x w
    · rw [hrun]
      exact ⟨_, hrouter, .failed halt⟩
    · rw [hrun]
      exact tells_tell hdry hformat hroom hrouter object rfl rfl
  | true =>
    have hreal := Mode.dryRun_of_shouldWait hwait
    obtain ⟨result, hreply⟩ := x.exists_reply_send w.store
    cases result with
    | error e =>
      rw [run_submit_of_error hreal hreply]
      exact ⟨_, rfl, .failed _⟩
    | ok object =>
      rw [run_submit_of_ok hreal hreply]
      exact tells_report hdry hformat hroom hwait hreply

/-- What a course writes if text is shown. -/
theorem tells_action (hrequested : s.mode.outputRequested = false) (course : Course) :
    WritesOut w.router (course.Tells s w.store w.router.out) ((course.action s).run w) := by
  cases course with
  | fail e => exact ⟨_, rfl, .failed _⟩
  | keep observed => exact tells_tell hdry hformat hroom rfl observed rfl rfl
  | submit x => exact tells_submit hdry hformat hroom x
  | delete type ns name =>
    obtain ⟨v, hrouter, ⟨halt, hrun⟩ | hrun⟩ := run_delete s type ns name w
    · rw [action, hrun]
      exact ⟨_, hrouter, .failed halt⟩
    · -- The object is deleted, and the result is told
      have hresult : (emit (·.emitResult ("\"" ++ name ++ "\" deleted"))).run v =
          (.ok (), { v with router := { w.router with out := (w.router.out.writeText
            (Router.line ("\"" ++ name ++ "\" deleted") w.router.dryRun)).2 } }) := by
        rw [run_emit, hrouter, Router.emitResult_of_unlimited hroom]
        simp only [hformat]
        rfl
      have htold : (Course.delete type ns name).Tells s w.store w.router.out (.ok ()) _ := .told rfl
      rw [show (Course.delete type ns name).mutates = true from rfl, Bool.true_and, ← hdry] at htold
      rw [action, hrun, hresult]
      exact ⟨_, rfl, htold⟩
  | print type name object =>
    simp only [action, hrequested, Bool.false_eq_true, if_false]
    rw [run_emit, Router.emitLine_of_unlimited hformat hroom]
    exact ⟨_, rfl, .told rfl⟩

end Telling

end Course

/-! ## Invocations -/

namespace Command

/-- Commands that change something, or would. -/
def mutates : Command → Bool
  | get .. => false
  | _ => true

/-- A command and its course are of the same kind, unless it fails. -/
theorem Takes.of_text {differ : Differ} {files : Files} {s t : MemoryStore} {c : Command}
    {course : Course} (h : c.Takes differ files s course t) {text : String}
    (htext : course.text? = some text) :
    c.mutates = course.mutates ∧ c.printsObject = !course.deletes := by
  cases h with
  | reject | unread | incomplete | missing => cases htext
  | keep hupdates | patch hupdates => cases hupdates <;> exact ⟨rfl, rfl⟩
  | create | new | delete | print => exact ⟨rfl, rfl⟩

end Command

namespace Invocation

/-- The text by which an invocation tells that it waits, after its change was accepted. -/
def Waits (i : Invocation) (files : Files) (s : MemoryStore) (waiting : String) : Prop :=
  i.mode.shouldWait = true ∧ ∃ x t object, i.command.Takes .standard files s (.submit x) t ∧
    (x.send t).reply = .done (.ok object) ∧ waiting = waitText x.type object

/-- What an invocation that has ended wrote after what was in its streams already. -/
structure Streams (i : Invocation) (files : Files) (s : MemoryStore) (out err : Sink)
    (e : Ending MemoryStore) : Prop where
  silent : e.err = err
  /-- With a format, failures and deletions print nothing. -/
  unprinted : i.mode.output ≠ none → e.halt ≠ none ∨ i.command.printsObject = false → e.out = out
  /-- With a format, all else prints one document, which ends with a line break. -/
  printed : ∀ name, i.mode.output = some name → e.halt = none → i.command.printsObject = true →
    ∃ format document body, Format.ofName name = .ok format ∧ document.HasIdentity ∧
      format.document document = body ++ "\n" ∧
      e.out = (out.writeText (format.document document)).2
  /-- Without a format, a failure is not told, but what comes before it may be. -/
  failed : i.mode.output = none → e.halt ≠ none →
    e.out = out ∨ ∃ waiting, i.Waits files s waiting ∧ e.out = (out.writeText waiting).2
  /-- Without a format, one result is told, with a remark if it is that of a dry run. -/
  told : i.mode.output = none → e.halt = none → ∃ course t text waiting,
    i.command.Takes .standard files s course t ∧ course.text? = some text ∧
    (waiting = "" ∨ i.Waits files s waiting) ∧
    e.out = (out.writeText (waiting ++ (text ++
      (if i.command.mutates && i.mode.dryRun then " (dry run)" else "") ++ "\n"))).2

section Ending

variable {i : Invocation} {files : Files} {s t : MemoryStore} {course : Course}
  (htakes : i.command.Takes .standard files s course t) {out out' err : Sink}
  {result : Except Halt Unit} {v : World MemoryStore} (hout : v.router.out = out')
  (herr : v.router.err = err)
include htakes hout herr

/-- What is written with a format. -/
theorem streams_of_prints {name : String} (houtput : i.mode.output = some name) {format : Format}
    (hname : Format.ofName name = .ok format) (hprints : course.Prints format out result out') :
    i.Streams files s out err (.ofRun (result, v)) := by
  refine {
    silent := herr, unprinted := ?unprinted, printed := ?printed,
    failed := fun hnone => ?failed, told := fun hnone => ?told }
  case unprinted =>
    refine fun _ hunprinted => hout.trans ?_
    cases hprints with
    | failed | deleted => rfl
    | printed htext hdeletes =>
      -- A course with a text that deletes nothing has an object to print
      obtain ⟨-, hobject⟩ := htakes.of_text htext
      rw [hdeletes] at hobject
      rcases hunprinted with hhalt | hunprinted
      · exact absurd rfl hhalt
      · cases hobject.symm.trans hunprinted
  case printed =>
    intro name' hname' hhalt hobject
    cases houtput.symm.trans hname'
    cases hprints with
    | failed halt => cases hhalt
    | deleted htext hdeletes =>
      -- A course that deletes has no object to print
      obtain ⟨-, hunprinted⟩ := htakes.of_text htext
      rw [hdeletes] at hunprinted
      cases hobject.symm.trans hunprinted
    | @printed _ _ _ document hidentity =>
      obtain ⟨body, hbody⟩ := format.exists_document_eq document
      exact ⟨format, document, body, hname, hidentity, hbody, hout⟩
  case failed | told => cases houtput.symm.trans hnone

/-- What is written without a format. -/
theorem streams_of_tells (houtput : i.mode.output = none) {settings : Settings}
    (hmode : settings.mode = i.mode) (htells : course.Tells settings t out result out') :
    i.Streams files s out err (.ofRun (result, v)) := by
  refine {
    silent := herr, unprinted := fun hsome => absurd houtput hsome, printed := ?printed,
    failed := fun _ hhalt => ?failed, told := fun _ hhalt => ?told }
  case printed =>
    intro name hname
    cases houtput.symm.trans hname
  case failed =>
    cases htells with
    | failed halt => exact Or.inl hout
    | gaveUp halt hcourse hwait hreply =>
      subst hcourse
      exact Or.inr ⟨_, ⟨hmode ▸ hwait, _, _, _, htakes, hreply, rfl⟩, hout⟩
    -- What was told, with or without waiting, was a success.
    | told | waited => exact absurd rfl hhalt
  case told =>
    cases htells with
    | failed halt | gaveUp halt => cases hhalt
    | told htext =>
      refine ⟨course, t, _, "", htakes, htext, Or.inl rfl, hout.trans ?_⟩
      rw [(htakes.of_text htext).1, hmode, String.empty_append]
      rfl
    | waited hcourse hwait hreply =>
      -- The first text is told before the wait, the second one in the end
      subst hcourse
      rw [hmode] at hwait
      refine ⟨_, t, _, _, htakes, rfl, Or.inr ⟨hwait, _, _, _, htakes, hreply, rfl⟩,
        hout.trans ?_⟩
      rw [Mode.dryRun_of_shouldWait hwait, Bool.and_false]
      rfl

end Ending

/-- What an invocation writes where there is room for it. -/
theorem perform_streams {i : Invocation} (h : i.mode.IsSupported) {out : Sink}
    (hroom : out.limit = none) (files : Files) (interrupt : Option Nat) (err : Sink)
    (s : MemoryStore) : i.Streams files s out err (i.perform files interrupt out err s) := by
  obtain ⟨router, hrouter⟩ := h.exists_router .standard out err
  obtain ⟨format, hformat, rfl⟩ := Router.ofMode_eq_ok_iff.1 hrouter
  let settings : Settings := { mode := i.mode, patience := ⟨i.timeout, interrupt⟩ }
  -- The command comes to some course, with the router as it was made.
  obtain ⟨course, u, htakes, hurouter, hrun⟩ := i.command.exists_course files settings
    { store := s, router := ⟨i.mode.dryRun, format, .standard, out, err⟩ }
  rw [perform_eq hrouter, hrun]
  have hregistry : u.router.registry = .standard := by rw [hurouter]
  have hdry : u.router.dryRun = settings.mode.dryRun := by rw [hurouter]
  have hformat' : u.router.format = format := by rw [hurouter]
  have hout : u.router.out = out := by rw [hurouter]
  have hroom' : u.router.out.limit = none := by rw [hout]; exact hroom
  cases houtput : i.mode.output with
  | some name =>
    rw [houtput] at hformat
    -- An output mode that is supported has a format
    obtain ⟨known, hname, heq⟩ := Except.map_ok_iff.1
      (show (Format.ofName name).map some = .ok format from hformat)
    subst heq
    have hrequested : settings.mode.outputRequested = true := by
      simp [settings, Mode.outputRequested, houtput]
    obtain ⟨out', hafter, hprints⟩ := Course.prints_action hformat' hroom' hregistry hrequested
      htakes.isPrintable
    rw [hurouter] at hafter hprints
    exact streams_of_prints htakes (congrArg Router.out hafter) (congrArg Router.err hafter) houtput
      hname hprints
  | none =>
    rw [houtput] at hformat
    cases hformat
    have hrequested : settings.mode.outputRequested = false := by
      simp [settings, Mode.outputRequested, houtput]
    obtain ⟨out', hafter, htells⟩ := Course.tells_action hdry hformat' hroom' hrequested course
    rw [hurouter] at hafter htells
    exact streams_of_tells htakes (congrArg Router.out hafter) (congrArg Router.err hafter) houtput
      rfl htells

/-- A patch that is accepted but never becomes ready has told that it waits, and nothing else.  A
secret is printed with its identity if there is a format. -/
theorem perform_streams_patch :
    let builder : Json := .obj [("metadata", .obj [("name", .str "base")]),
      ("spec", .obj [("stack", .obj [("name", .str "tiny")]), ("tag", .str "r/base")])]
    let secret : Json := .obj [("metadata", .obj [("name", .str "key")])]
    let store : MemoryStore := { objects := [(.ofLocation .builder none "base", builder),
      (.ofLocation .secret none "key", secret)] }
    let patch : Invocation :=
      ⟨.patch .builder none "base" { stack := some "full" }, { wait := true }, .ofSeconds 600⟩
    let get : Invocation := ⟨.get .secret none "key", { output := some "yaml" }, .ofSeconds 600⟩
    let patched := patch.perform default none {} {} store
    let shown := get.perform default none {} {} store
    (patch.mode.IsSupported ∧ patch.Streams default store {} {} patched ∧ patched.halt ≠ none ∧
      patched.out = (({} : Sink).writeText "Waiting for Builder \"base\" to become ready...\n").2) ∧
    get.mode.IsSupported ∧ get.Streams default store {} {} shown ∧ shown.halt = none ∧
      shown.out = (({} : Sink).writeText
        "---\napiVersion: v1\nkind: Secret\nmetadata:\n  name: key\n").2 := by
  intro builder secret store patch get patched shown
  have hpatch : patch.mode.IsSupported := List.mem_cons_self
  have hget : get.mode.IsSupported := List.mem_cons_of_mem _ List.mem_cons_self
  exact ⟨⟨hpatch, perform_streams hpatch rfl default none {} store, by decide +kernel,
    by decide +kernel⟩, hget, perform_streams hget rfl default none {} store, by decide +kernel,
    by decide +kernel⟩

end Invocation

end BuilderControl
