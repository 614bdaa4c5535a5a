import BuilderControl.Engine
import BuilderControl.Store.Memory
import BuilderControl.Proofs.Records

/-!
# Runs of actions and what they do to a store

An action changes a store only through its requests: logging and writing leave it alone.  `Along`
relates the stores before and after a run, whatever the run ends with.

## Key results

- `Action.run_bind_ok`: runs that end with a value, step by step
- `Action.Along.bind`: stores along two actions in a row
- `MemoryStore.patch_store`: what a patch that is not made to fail does to a store
- `Engine.run_watch`, `Engine.run_lookUp`: runs that follow or look for an object
- `Engine.along_converge`: waiting changes no object and starts at most one watch
- `Engine.along_patch`, `Engine.quiet_patch`: what submitting a difference does to a store
-/

namespace BuilderControl

namespace Action

variable {σ α β : Type} {x : Action σ α} {f : α → Action σ β}

/-! ## Runs -/

/-- Two steps in a row: the second one is taken in the world that the first one leaves, unless that
fails. -/
theorem run_bind (x : Action σ α) (f : α → Action σ β) (w : World σ) :
    (x >>= f).run w = match x.run w with
      | (.ok a, w') => (f a).run w'
      | (.error e, w') => (.error e, w') := by
  simp only [run, ExceptT.run, StateT.run, bind, ExceptT.bind, ExceptT.mk, StateT.bind]
  cases x w with
  | mk r w' => cases r <;> rfl

/-- After a step that ends with a value, the next one is taken. -/
theorem run_bind_of_ok {a : α} {w w' : World σ} (h : x.run w = (.ok a, w')) :
    (x >>= f).run w = (f a).run w' := by
  rw [run_bind, h]

/-- Two steps in a row end with a value if both of them do. -/
theorem run_bind_ok {w w' : World σ} {b : β} :
    (x >>= f).run w = (.ok b, w') ↔
      ∃ a u, x.run w = (.ok a, u) ∧ (f a).run u = (.ok b, w') := by
  rw [run_bind]
  constructor
  · intro h
    cases hx : x.run w with
    | mk r u =>
      rw [hx] at h
      cases r with
      | ok a => exact ⟨a, u, rfl, h⟩
      | error e => cases h
  · rintro ⟨a, u, hx, hf⟩
    rw [hx]
    exact hf

/-- A value is given at once. -/
@[simp] theorem run_pure (a : α) (w : World σ) : (pure a : Action σ α).run w = (.ok a, w) := rfl

/-- A log entry is appended to those before it. -/
@[simp] theorem run_log (level : Level) (text : String) (w : World σ) :
    (log level text).run w = (.ok (), { w with logs := w.logs ++ [⟨level, text⟩] }) := rfl

/-- The world is changed. -/
@[simp] theorem run_modify (change : World σ → World σ) (w : World σ) :
    (modify change : Action σ PUnit).run w = (.ok (), change w) := rfl

/-- A result that is given already ends the run with it. -/
theorem run_ofExcept (result : Except Error α) (w : World σ) :
    (ofExcept result).run w = (result.mapError .failed, w) := by
  cases result <;> rfl

/-- A request ends as its reply says, in the world with the store and the log entries of its answer.
-/
theorem run_request (call : σ → Answer σ α) (w : World σ) :
    (request call).run w =
      (match (call w.store).reply with
        | .done result => result.mapError .failed
        | .never => .error .hung,
      { w with store := (call w.store).store, logs := w.logs ++ (call w.store).logs }) := by
  -- The world is set before the reply is looked at
  have hrun : (request call).run w =
      (match (call w.store).reply with
        | .done result => ofExcept result
        | .never => throw .hung : Action σ α).run
          { w with store := (call w.store).store, logs := w.logs ++ (call w.store).logs } := rfl
  rw [hrun]
  cases (call w.store).reply with
  | done result => exact run_ofExcept result _
  | never => rfl

/-- A request ends with a value if it is answered with this value. -/
theorem run_request_ok {call : σ → Answer σ α} {w w' : World σ} {a : α} :
    (request call).run w = (.ok a, w') ↔ (call w.store).reply = .done (.ok a) ∧
      w' = { w with store := (call w.store).store, logs := w.logs ++ (call w.store).logs } := by
  rw [run_request, Prod.mk.injEq, @eq_comm _ _ w']
  refine and_congr_left fun _ => ?_
  cases (call w.store).reply with
  | done result => simp [Except.mapError_ok_iff]
  | never => simp

/-- Writing changes the router only, and fails if something can not be written. -/
theorem run_emit (write : Router → Except Error Unit × Router) (w : World σ) :
    (emit write).run w =
      ((write w.router).1.mapError .failed, { w with router := (write w.router).2 }) := by
  have hrun : (emit write).run w = (ofExcept (write w.router).1 : Action σ Unit).run
      { w with router := (write w.router).2 } := rfl
  rw [hrun, run_ofExcept]

/-- A failure is handled in the world that it leaves. -/
theorem run_tryCatch (x : Action σ α) (handle : Halt → Action σ α) (w : World σ) :
    (tryCatch x handle).run w = match x.run w with
      | (.ok a, w') => (.ok a, w')
      | (.error e, w') => (handle e).run w' := by
  have hrun : (tryCatch x handle).run w =
      ((x.run w : Except Halt α × World σ).1.casesOn
        (fun e => (handle e).run (x.run w).2) fun a => (.ok a, (x.run w).2)) := by
    simp only [run, tryCatch, tryCatchThe, MonadExceptOf.tryCatch, ExceptT.tryCatch, ExceptT.run,
      ExceptT.mk, StateT.run, bind, StateT.bind]
    cases x w with
    | mk r w' => cases r <;> rfl
  rw [hrun]
  cases x.run w with
  | mk r w' => cases r <;> rfl

/-- A value that a run ends with is changed. -/
theorem run_map_of_ok {a : α} {w w' : World σ} (f : α → β) (h : x.run w = (.ok a, w')) :
    (f <$> x).run w = (.ok (f a), w') := by
  rw [map_eq_pure_bind, run_bind_of_ok h, run_pure]

/-- Without a failure, there is nothing to handle. -/
theorem run_tryCatch_of_ok {a : α} {w w' : World σ} (handle : Halt → Action σ α)
    (h : x.run w = (.ok a, w')) : (tryCatch x handle).run w = (.ok a, w') := by
  rw [run_tryCatch, h]

/-- A run without a value that ends well, from how it ends. -/
theorem eq_ok_of_isOk {run : Except Halt Unit × World σ} (h : run.1.isOk = true) :
    run = (.ok (), run.2) := by
  obtain ⟨⟨_⟩ | ⟨⟨⟩⟩, w⟩ := run
  · cases h
  · rfl

/-! ## Stores along runs -/

/-- How the stores before and after a run are related. -/
def Along (R : σ → σ → Prop) (x : Action σ α) : Prop := ∀ w, R w.store (x.run w).2.store

/-- An action that leaves the store alone. -/
abbrev Quiet (x : Action σ α) : Prop := Along (fun s s' => s' = s) x

variable {R S T : σ → σ → Prop}

/-- Stores along two actions in a row: the second one is run only if the first one ends with a
value. -/
theorem Along.bind (hx : Along R x) (hf : ∀ a, Along S (f a)) (hr : ∀ {s t}, R s t → T s t)
    (hrs : ∀ {s t u}, R s t → S t u → T s u) : Along T (x >>= f) := by
  intro w
  have hw := hx w
  rw [run_bind]
  cases hrun : x.run w with
  | mk r w' =>
    rw [hrun] at hw
    cases r with
    | ok a => exact hrs hw (hf a w')
    | error e => exact hr hw

/-- What comes after an action that leaves the store alone. -/
theorem Along.after_quiet (hx : Quiet x) (hf : ∀ a, Along R (f a)) (hrefl : ∀ s, R s s) :
    Along R (x >>= f) :=
  hx.bind hf (fun {s _} h => h ▸ hrefl s) fun h hr => h ▸ hr

/-- What comes before an action that leaves the store alone. -/
theorem Along.then_quiet (hx : Along R x) (hf : ∀ a, Quiet (f a)) : Along R (x >>= f) :=
  hx.bind hf (fun h => h) fun hr h => h ▸ hr

/-- Giving a value leaves the store alone. -/
theorem quiet_pure (a : α) : Quiet (pure a : Action σ α) := fun _ => rfl

/-- Logging leaves the store alone. -/
theorem quiet_log (level : Level) (text : String) : Quiet (log level text : Action σ Unit) :=
  fun _ => rfl

/-- Writing leaves the store alone. -/
theorem quiet_emit (write : Router → Except Error Unit × Router) :
    Quiet (emit write : Action σ Unit) :=
  fun w => by rw [run_emit]

/-- A request leaves the store of its answer. -/
theorem along_request (call : σ → Answer σ α) :
    Along (fun s s' => s' = (call s).store) (request call) :=
  fun w => by rw [run_request]

end Action

/-! ## Requests to a store in memory -/

namespace MemoryStore

variable {type : ResourceType} {ns : Option String} {name : String} {patch : MergePatch}
  {s : MemoryStore}

/-- Without planned faults, what is stored is what is got. -/
theorem get_eq {document : Json} {r : Resource} (hfaults : s.faults = [])
    (h : Entries.get? s.objects (.ofLocation type ns name) = some document)
    (hr : Resource.ofJson (some type) document = .ok r) :
    Store.get type ns name s = {
      reply := .done (.ok r)
      store := { s with calls := s.calls ++ [⟨.get, type, ns, name⟩] } } := by
  obtain ⟨objects, calls, faults, events⟩ := s
  cases hfaults
  simp only [Store.get, enter, takeFault, answer, h, readStored, hr]
  rfl

/-- A request that is answered well was not made to fail. -/
theorem of_answer_ok {α : Type} {op : Operation}
    {entered : Option Api.ErrorResponse × MemoryStore}
    {act : MemoryStore → Except Api.ErrorResponse (Except Error α × MemoryStore)} {a : α}
    (h : (answer op type ns name entered act).reply = .done (.ok a)) :
    ∃ t, act entered.2 = .ok (.ok a, t) ∧ (answer op type ns name entered act).store = t := by
  obtain ⟨_ | response, t⟩ := entered
  · simp only [answer] at h ⊢
    -- The request was not made to fail, and did not fail itself
    cases hact : act t with
    | error response => rw [hact] at h; cases h
    | ok result =>
      obtain ⟨result, t'⟩ := result
      rw [hact] at h
      cases h
      exact ⟨t', rfl, rfl⟩
  · cases h

/-- What is got was stored, and still is. -/
theorem of_get_ok {r : Resource} (h : (Store.get type ns name s).reply = .done (.ok r)) :
    ∃ document, Entries.get? s.objects (.ofLocation type ns name) = some document ∧
      Resource.ofJson (some type) document = .ok r ∧
      (Store.get type ns name s).store.objects = s.objects := by
  obtain ⟨t, hact, hstore⟩ := of_answer_ok h
  simp only [enter] at hact
  -- An object that is not stored is not got
  cases hget : Entries.get? s.objects (.ofLocation type ns name) with
  | none => rw [hget] at hact; cases hact
  | some document =>
    rw [hget] at hact
    injection hact with hact
    obtain ⟨hread, ht⟩ := Prod.mk.inj hact
    refine ⟨document, rfl, Except.mapError_ok_iff.1 hread, ?_⟩
    exact (congrArg MemoryStore.objects hstore).trans (congrArg MemoryStore.objects ht).symm

/-- What is answered for a new object is what is stored. -/
theorem of_create_ok {object r : Resource}
    (h : (Store.create type ns object s).reply = .done (.ok r)) :
    Resource.ofJson (some type) (initial type object) = .ok r := by
  obtain ⟨t, hact, -⟩ := of_answer_ok h
  simp only at hact
  split at hact
  · cases hact
  · injection hact with hact
    exact Except.mapError_ok_iff.1 (Prod.mk.inj hact).1

/-- What is answered to a patch is what is stored then. -/
theorem of_patch_ok {document : Json} {r : Resource}
    (hget : Entries.get? s.objects (.ofLocation type ns name) = some document)
    (h : (Store.patch type ns name patch s).reply = .done (.ok r)) :
    Resource.ofJson (some type) (patched patch document) = .ok r := by
  obtain ⟨t, hact, -⟩ := of_answer_ok h
  simp only [enter, hget] at hact
  injection hact with hact
  exact Except.mapError_ok_iff.1 (Prod.mk.inj hact).1

/-- The store after a patch that was accepted. -/
def afterPatch (s : MemoryStore) (type : ResourceType) (ns : Option String) (name : String)
    (patch : MergePatch) (document : Json) : MemoryStore :=
  { s with
    calls := s.calls ++ [⟨.patch patch.toJson, type, ns, name⟩]
    faults := (takeFault (.operation .patch) s.faults).2
    objects := Entries.insert s.objects (.ofLocation type ns name) (patched patch document) }

/-- Without planned faults, a patch is answered with what is stored then. -/
theorem patch_eq {document : Json} {r : Resource} (hfaults : s.faults = [])
    (h : Entries.get? s.objects (.ofLocation type ns name) = some document)
    (hr : Resource.ofJson (some type) (patched patch document) = .ok r) :
    Store.patch type ns name patch s =
      { reply := .done (.ok r), store := s.afterPatch type ns name patch document } := by
  obtain ⟨objects, calls, faults, events⟩ := s
  cases hfaults
  simp only [Store.patch, enter, takeFault, answer, h, readStored, hr]
  rfl

/-- A patch that is not made to fail changes the object it is for, and no other. -/
theorem patch_store (patch : MergePatch) {document : Json}
    (hfault : (takeFault (.operation .patch) s.faults).1 = none)
    (h : Entries.get? s.objects (.ofLocation type ns name) = some document) :
    (Store.patch type ns name patch s).store = s.afterPatch type ns name patch document := by
  simp only [Store.patch, enter, hfault, answer, h]
  rfl

/-- A patch that succeeds is not made to fail. -/
theorem fault_eq_none_of_patch {patched : Resource}
    (h : (Store.patch type ns name patch s).reply = .done (.ok patched)) :
    (takeFault (.operation .patch) s.faults).1 = none := by
  cases hfault : (takeFault (.operation .patch) s.faults).1 with
  | none => rfl
  | some response => simp [Store.patch, enter, hfault, answer] at h

end MemoryStore

/-! ## Waiting -/

/-- Nothing is changed, and at most one watch is started. -/
structure MemoryStore.Watches (s s' : MemoryStore) : Prop where
  objects : s'.objects = s.objects
  calls : ∃ watches : List Call, s'.calls = s.calls ++ watches ∧
    (watches = [] ∨ ∃ type ns name, watches = [⟨.watch, type, ns, name⟩])

/-- Doing nothing starts no watch. -/
theorem MemoryStore.Watches.refl (s : MemoryStore) : s.Watches s :=
  ⟨rfl, [], (List.append_nil _).symm, Or.inl rfl⟩

/-- Following reports changes nothing. -/
theorem follow_store {σ : Type} (patience : Patience) (type : ResourceType) (location : Location)
    (ending : Option Nat) {steps : List (Nat × Occurrence σ)}
    (h : ∀ step ∈ steps, ∃ result, step.2 = .report result) (now : Nat) (store : σ) :
    (follow patience type location ending now steps store).store = store := by
  induction steps generalizing now with
  | nil =>
    simp only [follow]
    split
    · split <;> rfl
    · rfl
  | cons step steps ih =>
    obtain ⟨delay, occurrence⟩ := step
    -- A report is passed on or ends the watch, and leaves the store alone
    obtain ⟨result, rfl⟩ := h _ List.mem_cons_self
    simp only [follow]
    split
    · split
      · rfl
      · exact ih (fun step hs => h step (List.mem_cons_of_mem _ hs)) (now + delay)
    · rfl

/-- On the timeline of a watch in memory, there is nothing but reports. -/
theorem MemoryStore.report_of_mem_timeline (type : ResourceType) (ns : Option String)
    (name : String) {events : List (Nat × WatchEvent)} :
    ∀ step ∈ (timeline type ns name events).steps, ∃ result, step.2 = .report result := by
  induction events with
  | nil => simp [timeline]
  | cons event events ih =>
    obtain ⟨delay, event⟩ := event
    simp only [timeline]
    split
    · simp
    · intro step hs
      rcases List.mem_cons.1 hs with rfl | hs
      · exact ⟨_, rfl⟩
      · exact ih step hs

/-- What is watched in memory was given beforehand and only reports. -/
theorem MemoryStore.report_of_watch {type : ResourceType} {ns : Option String} {name : String}
    {s : MemoryStore} {line : Timeline MemoryStore}
    (h : (Store.watch type ns name s).reply = .done (.ok line)) :
    ∀ step ∈ line.steps, ∃ result, step.2 = .report result := by
  obtain ⟨objects, calls, faults, _ | events⟩ := s
  · cases h
    simp
  · cases h
    exact report_of_mem_timeline type ns name

/-- Dry runs do not wait. -/
theorem Mode.shouldWait_of_dryRun {m : Mode} (h : m.dryRun = true) : m.shouldWait = false := by
  simp [shouldWait, h]

/-- Whoever waits makes no dry run. -/
theorem Mode.dryRun_of_shouldWait {m : Mode} (h : m.shouldWait = true) : m.dryRun = false := by
  rw [← Bool.not_eq_true]
  intro hdry
  cases (shouldWait_of_dryRun hdry).symm.trans h

/-- What is found by a look-up that gets a reply; an object that is not found is none. -/
def Reply.found {α : Type} : Reply α → Except Halt (Option α)
  | done (.ok object) => .ok (some object)
  | done (.error e) => if e.isNotFound then .ok none else .error (.failed e)
  | never => .error .hung

/-- What is found is what was replied. -/
theorem Reply.eq_of_found_some {α : Type} {reply : Reply α} {a : α}
    (h : reply.found = .ok (some a)) : reply = .done (.ok a) := by
  cases reply with
  | never => cases h
  | done result =>
    cases result with
    | ok found => cases h; rfl
    | error e =>
      rw [found] at h
      split at h <;> cases h

namespace Engine

open BuilderControl.Action MemoryStore

/-- Follows a watch of an object. -/
def watch {σ : Type} [Store σ] (patience : Patience) (type : ResourceType) (ns : Option String)
    (name : String) : Action σ Resource := do
  let line ← request (Store.watch type ns name)
  let w ← get
  let outcome := line.await patience type ⟨name, ns⟩ w.store
  set { w with store := outcome.store, logs := w.logs ++ outcome.logs }
  Action.ofExcept outcome.result

/-- How a watch ends follows from its timeline. -/
theorem run_watch {σ : Type} [Store σ] (patience : Patience) (type : ResourceType)
    (ns : Option String) (name : String) (w : World σ) :
    (watch patience type ns name).run w = match Store.watch type ns name w.store with
      | ⟨.done (.ok line), store, logs⟩ =>
        ((line.await patience type ⟨name, ns⟩ store).result.mapError .failed, { w with
          store := (line.await patience type ⟨name, ns⟩ store).store
          logs := w.logs ++ logs ++ (line.await patience type ⟨name, ns⟩ store).logs })
      | ⟨.done (.error e), store, logs⟩ =>
        (.error (.failed e), { w with store := store, logs := w.logs ++ logs })
      | ⟨.never, store, logs⟩ =>
        (.error .hung, { w with store := store, logs := w.logs ++ logs }) := by
  rw [watch, run_bind, run_request]
  obtain ⟨_ | _, store, logs⟩ := Store.watch type ns name w.store
  · rename_i result
    cases result with
    | error e => rfl
    | ok line => exact run_ofExcept _ _
  · rfl

section Reports

variable {σ : Type} [Store σ] {R : σ → σ → Prop} {type : ResourceType} {ns : Option String}
  {name : String} (hwatch : ∀ t : σ, R t (Store.watch type ns name t).store)
  (hreports : ∀ (t : σ) line, (Store.watch type ns name t).reply = .done (.ok line) →
    ∀ step ∈ line.steps, ∃ result, step.2 = .report result)
include hwatch hreports

/-- Following a watch does what starting it does, if it only reports. -/
theorem along_watch (patience : Patience) :
    Along R (watch patience type ns name : Action σ Resource) := by
  intro w
  have hstarted := hwatch w.store
  have honly := hreports w.store
  rw [run_watch]
  split
  · rename_i line store logs hanswer
    rw [hanswer] at hstarted honly
    have hstore := follow_store patience type ⟨name, ns⟩ line.ending (honly line rfl) 0 store
    show R w.store (follow patience type ⟨name, ns⟩ line.ending 0 line.steps store).store
    rw [hstore]
    exact hstarted
  · rename_i hanswer
    rwa [hanswer] at hstarted
  · rename_i hanswer
    rwa [hanswer] at hstarted

/-- Waiting for an object does what a watch of it does, if that only reports. -/
theorem along_converge_of_reports (hrefl : ∀ t, R t t) (s : Settings) {object : Resource}
    (hname : object.name = name) : Along R (converge s type ns object : Action σ Resource) := by
  subst hname
  simp only [converge]
  split
  · intro w
    exact hrefl w.store
  · -- It is watched only after what is logged and printed
    exact (quiet_log _ _).after_quiet (fun _ => (quiet_emit _).after_quiet
      (fun _ => along_watch hwatch hreports s.patience) hrefl) hrefl

end Reports

/-- Waiting changes no object and starts at most one watch. -/
theorem along_converge (s : Settings) (type : ResourceType) (ns : Option String)
    (object : Resource) : Along MemoryStore.Watches (converge s type ns object) :=
  along_converge_of_reports (fun _ => ⟨rfl, _, rfl, Or.inr ⟨type, ns, object.name, rfl⟩⟩)
    (fun _ _ hline => report_of_watch hline) Watches.refl s rfl

/-- Without a wait, nothing is done. -/
theorem quiet_converge {σ : Type} [Store σ] {s : Settings} (h : s.mode.shouldWait = false)
    (type : ResourceType) (ns : Option String) (object : Resource) :
    Quiet (converge s type ns object : Action σ Resource) := by
  simp only [converge, h]
  exact quiet_pure object

/-! ## Looking objects up -/

/-- Gets an object, if there is one. -/
def lookUp {σ : Type} [Store σ] (type : ResourceType) (ns : Option String) (name : String) :
    Action σ (Option Resource) :=
  tryCatch (some <$> request (Store.get type ns name)) fun halt =>
    match halt with
    | .failed e => if e.isNotFound then pure none else throw halt
    | .hung => throw halt

/-- What is found is what a `get` is answered with. -/
theorem run_lookUp {σ : Type} [Store σ] (type : ResourceType) (ns : Option String) (name : String)
    (w : World σ) : (lookUp type ns name).run w =
      ((Store.get type ns name w.store).reply.found, { w with
        store := (Store.get type ns name w.store).store
        logs := w.logs ++ (Store.get type ns name w.store).logs }) := by
  rw [lookUp, run_tryCatch, map_eq_pure_bind, run_bind, run_request]
  cases (Store.get type ns name w.store).reply with
  | never => rfl
  | done result =>
    cases result with
    | ok observed => rfl
    | error e =>
      -- A failed request is no object, or a failure
      rw [Reply.found]
      show (if e.isNotFound then pure none else throw (.failed e) : Action σ _).run _ = _
      cases e.isNotFound <;> rfl

/-! ## Reporting -/

/-- Prints an object and a result. -/
def tell {σ : Type} (object : Resource) (text : String) : Action σ Unit := do
  emit (·.emitObjects [object])
  emit (·.emitResult text)

/-- Waits for an object, then prints it and a result. -/
def report {σ : Type} [Store σ] (s : Settings) (type : ResourceType) (ns : Option String)
    (object : Resource) (text : String) : Action σ Unit := do
  let object ← converge s type ns object
  tell object text

/-- Telling a result leaves the store alone. -/
theorem quiet_tell {σ : Type} (object : Resource) (text : String) :
    Quiet (tell object text : Action σ Unit) :=
  (quiet_emit _).after_quiet (fun _ => quiet_emit _) fun _ => rfl

/-- All that a report does to a store is to wait. -/
theorem along_report {σ : Type} [Store σ] {R : σ → σ → Prop} {s : Settings} {type : ResourceType}
    {ns : Option String} {object : Resource}
    (hwait : Along R (converge s type ns object : Action σ Resource)) (text : String) :
    Along R (report s type ns object text) := hwait.then_quiet fun object => quiet_tell object text

/-- A report that is not preceded by a wait tells its result at once. -/
theorem report_of_not_shouldWait {σ : Type} [Store σ] {s : Settings}
    (h : s.mode.shouldWait = false) (type : ResourceType) (ns : Option String) (object : Resource)
    (text : String) : (report s type ns object text : Action σ Unit) = tell object text := by
  simp only [report, converge, h]
  rfl

/-! ## Patching -/

section Patch

variable {s : Settings} (type : ResourceType) (ns : Option String) (observed desired : Resource)

/-- What is done if nothing has to change. -/
theorem run_patch_of_isEmpty {σ : Type} [Store σ]
    (h : (s.differ.diff observed.document desired.document).isEmpty = true) (w : World σ) :
    ∃ u : World σ, u.store = w.store ∧ u.router = w.router ∧
      (patch s type ns observed desired).run w = (tell observed "nothing to patch").run u := by
  have hempty : (s.differ.compare observed.document desired.document).patch.isEmpty = true := h
  simp only [patch, hempty, if_true]
  rw [run_bind_of_ok (run_modify _ _)]
  refine ⟨_, ?_, ?_, rfl⟩ <;> rfl

/-- Nothing is submitted if nothing has to change. -/
theorem quiet_patch {σ : Type} [Store σ]
    (h : (s.differ.diff observed.document desired.document).isEmpty = true) :
    Quiet (patch s type ns observed desired : Action σ Unit) := by
  intro w
  obtain ⟨u, hu, -, hrun⟩ := run_patch_of_isEmpty type ns observed desired h w
  rw [hrun, ← hu]
  exact quiet_tell observed "nothing to patch" u

variable (hdry : s.mode.dryRun = false)
  (h : (s.differ.diff observed.document desired.document).isEmpty = false)
include h

/-- What is done if something has to change: the difference is submitted, unless the run is a dry
one, and then waited for. -/
theorem run_patch {σ : Type} [Store σ] (w : World σ) :
    ∃ u : World σ, u.store = w.store ∧ u.router = w.router ∧
      (patch s type ns observed desired).run w =
        ((if s.mode.dryRun then pure desired else request (Store.patch type ns observed.name
            (s.differ.diff observed.document desired.document))) >>= fun patched =>
          report s type ns patched ("\"" ++ observed.name ++ "\" patched") : Action σ Unit).run
          u := by
  have hempty : (s.differ.compare observed.document desired.document).patch.isEmpty = false := h
  simp only [patch, hempty, Bool.false_eq_true, if_false]
  rw [run_bind_of_ok (run_modify _ _), run_bind_of_ok (run_log _ _ _)]
  cases s.mode.dryRun with
  | true => refine ⟨_, ?_, ?_, rfl⟩ <;> rfl
  | false => refine ⟨_, ?_, ?_, rfl⟩ <;> rfl

include hdry

/-- If something has to change, the difference is submitted, and all else that is done is to
wait. -/
theorem along_patch {σ : Type} [Store σ] {R : σ → σ → Prop} (hrefl : ∀ t, R t t)
    (hwait : ∀ object, Along R (converge s type ns object : Action σ Resource)) (w : World σ) :
    R (Store.patch type ns observed.name
        (s.differ.diff observed.document desired.document) w.store).store
      ((patch s type ns observed desired).run w).2.store := by
  have hsubmit : Along (fun t t' => R (Store.patch type ns observed.name
      (s.differ.diff observed.document desired.document) t).store t') (do
        let patched ← request (Store.patch type ns observed.name
          (s.differ.diff observed.document desired.document))
        report s type ns patched ("\"" ++ observed.name ++ "\" patched") : Action σ Unit) := by
    refine (along_request _).bind (S := R) (fun patched => along_report (hwait patched) _)
      (fun heq => ?_) fun heq hr => ?_
    · exact heq ▸ hrefl _
    · exact heq ▸ hr
  -- What is logged before the request makes no difference to the store
  obtain ⟨u, hu, -, hrun⟩ := run_patch type ns observed desired h w
  rw [hrun, ← hu, hdry]
  exact hsubmit u

/-- A patch that succeeds was accepted by the store. -/
theorem patch_reply_of_run_ok {σ : Type} [Store σ] {w w' : World σ}
    (hok : (patch s type ns observed desired).run w = (.ok (), w')) :
    ∃ patched, (Store.patch type ns observed.name
      (s.differ.diff observed.document desired.document) w.store).reply = .done (.ok patched) := by
  obtain ⟨u, hu, -, hrun⟩ := run_patch type ns observed desired h w
  rw [hrun, hdry] at hok
  obtain ⟨patched, _, hrequest, -⟩ := run_bind_ok.1 hok
  obtain ⟨hreply, -⟩ := run_request_ok.1 hrequest
  exact ⟨patched, hu ▸ hreply⟩

end Patch

end Engine

end BuilderControl
