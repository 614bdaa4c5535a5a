import BuilderControl.Proofs.Clients

/-!
# Clients that are served without interruption

Run on a transcript, a command asks what it would ask the store, as long as it hears what the store
would answer.  So a client whose requests are served one after the other, with no other client in
between, does to the store what its invocation does.

## Key results

- `Action.Mirrors.bind`: actions that ask the same, one after the other
- `Command.mirrors_run`: commands on a transcript and on a store
- `Scene.exists_reaches_perform`: a client that is served without interruption
-/

namespace BuilderControl

open MemoryStore

/-! ## Requests in a row -/

/-- Serves requests one after the other. -/
def MemoryStore.serveAll (s : MemoryStore) : List Request → List Response × MemoryStore
  | [] => ([], s)
  | request :: requests =>
    let (response, s) := s.serve request
    let (responses, s) := s.serveAll requests
    (response :: responses, s)

namespace MemoryStore

/-- Requests are served one list after the other. -/
theorem serveAll_append (s : MemoryStore) (as bs : List Request) :
    s.serveAll (as ++ bs) = ((s.serveAll as).1 ++ ((s.serveAll as).2.serveAll bs).1,
      ((s.serveAll as).2.serveAll bs).2) := by
  induction as generalizing s with
  | nil => rfl
  | cons a as ih => simp only [List.cons_append, serveAll, ih]

/-- There is a response to each request. -/
@[simp] theorem length_serveAll (s : MemoryStore) (requests : List Request) :
    (s.serveAll requests).1.length = requests.length := by
  induction requests generalizing s with
  | nil => rfl
  | cons request requests ih => simp [serveAll, ih]

end MemoryStore

namespace Action

variable {α β : Type}

/-- What an action asks in a world, where another one asks the same on a transcript: when it has
heard all responses of the store, it ends in the same way, and until then it asks on. -/
structure MirrorsBy (x : Action MemoryStore α) (y : Action Transcript α) (w : World MemoryStore)
    (requests : List Request) : Prop where
  store : (x.run w).2.store = (w.store.serveAll requests).2
  whole : ∀ ahead asked, y.run ⟨⟨(w.store.serveAll requests).1 ++ ahead, asked⟩, w.router, w.logs⟩ =
    ((x.run w).1, ⟨⟨ahead, asked ++ requests⟩, (x.run w).2.router, (x.run w).2.logs⟩)
  part : ∀ k < requests.length, ∀ asked, ∃ v,
    y.run ⟨⟨(w.store.serveAll requests).1.take k, asked⟩, w.router, w.logs⟩ = (.error .hung, v) ∧
    v.store.asked = asked ++ requests.take (k + 1)

/-- Actions of which the second one asks on a transcript what the first one asks a store. -/
def Mirrors (x : Action MemoryStore α) (y : Action Transcript α) : Prop :=
  ∀ w, ∃ requests, MirrorsBy x y w requests

/-- Actions that ask the same, one after the other. -/
theorem Mirrors.bind {x : Action MemoryStore α} {y : Action Transcript α} (h : Mirrors x y)
    {f : α → Action MemoryStore β} {g : α → Action Transcript β} (hf : ∀ a, Mirrors (f a) (g a)) :
    Mirrors (x >>= f) (y >>= g) := by
  intro w
  obtain ⟨requests, hstore, hwhole, hpart⟩ := h w
  cases hx : x.run w with
  | mk result w' =>
    rw [hx] at hstore hwhole
    simp only at hstore hwhole
    cases result with
    | error e =>
      have hbind : (x >>= f).run w = (.error e, w') := by rw [run_bind, hx]
      -- The second actions are not run, so all that is asked is what the first ones ask
      refine ⟨requests, by rw [hbind]; exact hstore, fun ahead asked => ?_, fun k hk asked => ?_⟩
      · rw [hbind, run_bind, hwhole]
      · obtain ⟨v, hv, hasked⟩ := hpart k hk asked
        exact ⟨v, by rw [run_bind, hv], hasked⟩
    | ok a =>
      obtain ⟨more, hstore', hwhole', hpart'⟩ := hf a w'
      have hbind : (x >>= f).run w = (f a).run w' := run_bind_of_ok hx
      rw [hstore] at hstore' hwhole' hpart'
      refine ⟨requests ++ more, ?_, fun ahead asked => ?_, fun k hk asked => ?_⟩
      · rw [hbind, hstore', serveAll_append]
      · rw [hbind, serveAll_append, List.append_assoc, run_bind_of_ok (hwhole _ asked), hwhole',
          List.append_assoc]
      · rw [serveAll_append, List.take_append, length_serveAll]
        by_cases hlt : k < requests.length
        · -- Not even the first action has heard all that it asks for
          obtain ⟨v, hv, hasked⟩ := hpart k hlt asked
          rw [Nat.sub_eq_zero_of_le (Nat.le_of_lt hlt), List.take_zero, List.append_nil, run_bind,
            hv]
          refine ⟨v, rfl, hasked.trans ?_⟩
          rw [List.take_append_of_le_length hlt]
        · -- The first action has heard all, and the second one its first `j` responses
          obtain ⟨j, rfl⟩ := Nat.exists_eq_add_of_le (Nat.le_of_not_lt hlt)
          rw [List.length_append] at hk
          obtain ⟨v, hv, hasked⟩ := hpart' j (by omega) (asked ++ requests)
          rw [List.take_of_length_le (by simp), Nat.add_sub_cancel_left,
            run_bind_of_ok (hwhole _ asked), hv]
          refine ⟨v, rfl, hasked.trans ?_⟩
          rw [List.append_assoc, Nat.add_assoc, List.take_length_add_append]

/-- Actions that ask nothing. -/
theorem mirrors_of_asksNothing {x : Action MemoryStore α} {y : Action Transcript α}
    (h : ∀ w v, w.router = v.router → w.logs = v.logs → (x.run w).2.store = w.store ∧
      y.run v = ((x.run w).1, ⟨v.store, (x.run w).2.router, (x.run w).2.logs⟩)) :
    Mirrors x y := by
  intro w
  refine ⟨[], (h w ⟨⟨[], []⟩, w.router, w.logs⟩ rfl rfl).1, fun ahead asked => ?_, fun k hk => ?_⟩
  · rw [(h w _ rfl rfl).2, List.append_nil]
    rfl
  · exact absurd hk (Nat.not_lt_zero k)

/-- Giving a value asks nothing. -/
theorem mirrors_pure (a : α) : Mirrors (pure a) (pure a) :=
  mirrors_of_asksNothing fun w v hrouter hlogs =>
    ⟨rfl, by rw [run_pure, run_pure, hrouter, hlogs]⟩

/-- Logging asks nothing. -/
theorem mirrors_logs (entries : List LogEntry) :
    Mirrors (modify fun w => { w with logs := w.logs ++ entries })
      (modify fun w => { w with logs := w.logs ++ entries }) :=
  mirrors_of_asksNothing fun w v hrouter hlogs =>
    ⟨rfl, by rw [run_modify, run_modify, hrouter, hlogs]⟩

/-- Logging one entry asks nothing. -/
theorem mirrors_log (level : Level) (text : String) : Mirrors (log level text) (log level text) :=
  mirrors_logs [⟨level, text⟩]

/-- A result that is given already asks nothing. -/
theorem mirrors_ofExcept (result : Except Error α) : Mirrors (ofExcept result) (ofExcept result) :=
  mirrors_of_asksNothing fun w v hrouter hlogs =>
    ⟨by rw [run_ofExcept], by rw [run_ofExcept, run_ofExcept, hrouter, hlogs]⟩

/-- Failing asks nothing. -/
theorem mirrors_fail (e : Error) : Mirrors (fail e : Action MemoryStore α) (fail e) :=
  mirrors_ofExcept (.error e)

/-- Writing asks nothing. -/
theorem mirrors_emit (write : Router → Except Error Unit × Router) :
    Mirrors (emit write) (emit write) :=
  mirrors_of_asksNothing fun w v hrouter hlogs =>
    ⟨by rw [run_emit], by rw [run_emit, run_emit, hrouter, hlogs]⟩

/-- Actions that make one request and end with what becomes of its response. -/
theorem mirrors_of_asksOnce {x : Action MemoryStore α} {y : Action Transcript α} (request : Request)
    (result : Response → Except Halt α) (logged : Response → List LogEntry)
    (hx : ∀ w, x.run w = (result (w.store.serve request).1, { w with
      store := (w.store.serve request).2, logs := w.logs ++ logged (w.store.serve request).1 }))
    (hy : ∀ response ahead asked router logs, y.run ⟨⟨response :: ahead, asked⟩, router, logs⟩ =
      (result response, ⟨⟨ahead, asked ++ [request]⟩, router, logs ++ logged response⟩))
    (hnever : ∀ asked router logs, ∃ v, y.run ⟨⟨[], asked⟩, router, logs⟩ = (.error .hung, v) ∧
      v.store.asked = asked ++ [request]) : Mirrors x y := by
  intro w
  refine ⟨[request], by rw [hx]; rfl, fun ahead asked => ?_, fun k hk asked => ?_⟩
  · rw [hx]
    exact hy ..
  · cases Nat.lt_one_iff.1 hk
    exact hnever ..

/-- A request is asked once, and ends with what is heard of its response. -/
theorem mirrors_request {call : MemoryStore → Answer MemoryStore α}
    {call' : Transcript → Answer Transcript α} (request : Request) (hear : Response → Reply α)
    (h : ∀ s, call s = { reply := hear (s.serve request).1, store := (s.serve request).2 })
    (h' : ∀ t, call' t = t.ask request hear) :
    Mirrors (Action.request call) (Action.request call') := by
  refine mirrors_of_asksOnce request (fun response => (hear response).result) (fun _ => [])
    (fun w => ?_) (fun response ahead asked router logs => ?_) fun asked router logs => ?_
  · rw [run_request, h]
    rfl
  · rw [run_request, h']
    rfl
  · rw [run_request, h']
    exact ⟨_, rfl, rfl⟩

end Action

namespace MemoryStore

/-- A store in memory logs nothing. -/
theorem logs_answer {α : Type} (op : Operation) (type : ResourceType) (ns : Option String)
    (name : String) (entered : Option Api.ErrorResponse × MemoryStore)
    (act : MemoryStore → Except Api.ErrorResponse (Except Error α × MemoryStore)) :
    (answer op type ns name entered act).logs = [] := by
  obtain ⟨_ | response, s⟩ := entered
  · simp only [answer]
    split <;> rfl
  · rfl

/-- An answer without log entries is its reply and its store. -/
theorem eq_of_logs {α : Type} {answer : Answer MemoryStore α} (h : answer.logs = []) :
    answer = { reply := answer.reply, store := answer.store } := by
  obtain ⟨reply, store, logs⟩ := answer
  cases h
  rfl

end MemoryStore

/-! ## Following reports -/

namespace Reports

/-- How reports are followed does not depend on the store. -/
theorem follow_timeline {σ : Type} (patience : Patience) (type : ResourceType) (location : Location)
    (ending : Option Nat) (steps : List (Nat × Except Error Resource)) (now : Nat) (store : σ) :
    follow patience type location ending now (steps.map fun step => (step.1, .report step.2))
        store =
      let outcome := follow patience type location ending now
        (steps.map fun step => (step.1, .report step.2)) ()
      { outcome with store } := by
  induction steps generalizing now with
  | nil =>
    simp only [List.map_nil, follow, Patience.givenUp]
    split
    · split <;> rfl
    · rfl
  | cons step steps ih =>
    simp only [List.map_cons, follow, Patience.givenUp]
    split
    · split
      · rfl
      · rw [ih]
    · rfl

/-- How reports are waited for does not depend on the store. -/
theorem await_timeline {σ : Type} (r : Reports) (patience : Patience) (type : ResourceType)
    (location : Location) (store : σ) : r.timeline.await patience type location store =
      let outcome := r.timeline.await patience type location ()
      { outcome with store } := follow_timeline ..

/-- The reports of a timeline with nothing else on it are all of it. -/
theorem timeline_ofTimeline {σ : Type} {line : Timeline σ}
    (h : ∀ step ∈ line.steps, ∃ result, step.2 = .report result) :
    (ofTimeline line).timeline = line := by
  obtain ⟨steps, ending⟩ := line
  simp only [ofTimeline, timeline, Timeline.mk.injEq, and_true]
  induction steps with
  | nil => rfl
  | cons step steps ih =>
    obtain ⟨result, hresult⟩ := h step List.mem_cons_self
    obtain ⟨delay, _⟩ := step
    cases hresult
    simp only [List.filterMap_cons, List.map_cons,
      ih fun step hs => h step (List.mem_cons_of_mem _ hs)]

end Reports

/-! ## The steps of commands -/

namespace Engine

open BuilderControl.Action

variable (s : Settings) (type : ResourceType) (ns : Option String)

/-- Getting an object asks for it. -/
theorem mirrors_get (name : String) :
    Mirrors (request (Store.get type ns name)) (request (Store.get type ns name)) :=
  mirrors_request (.get type ns name) Response.toObject
    (fun _ => eq_of_logs (logs_answer ..)) fun _ => rfl

/-- Looking up an object asks for it. -/
theorem mirrors_lookUp (name : String) :
    Mirrors (lookUp type ns name) (lookUp type ns name) := by
  refine mirrors_of_asksOnce (.get type ns name) (fun response => response.toObject.found)
    (fun _ => []) (fun w => ?_) (fun response ahead asked router logs => ?_)
    fun asked router logs => ?_
  · have hlogs : (Store.get type ns name w.store).logs = [] := logs_answer ..
    rw [run_lookUp, hlogs]
    rfl
  · rw [run_lookUp]
    rfl
  · rw [run_lookUp]
    exact ⟨_, rfl, rfl⟩

/-- Following a watch asks for it, and takes the reports that are heard as they come. -/
theorem mirrors_watch (patience : Patience) (name : String) :
    Mirrors (watch patience type ns name) (watch patience type ns name) := by
  let outcome (reports : Reports) : WaitOutcome Unit :=
    reports.timeline.await patience type ⟨name, ns⟩ ()
  refine mirrors_of_asksOnce (.watch type ns name)
    (fun response => match response.toReports with
      | .done (.ok reports) => (outcome reports).result.mapError .failed
      | .done (.error e) => .error (.failed e)
      | .never => .error .hung)
    (fun response => match response.toReports with
      | .done (.ok reports) => (outcome reports).logs
      | _ => [])
    (fun w => ?_) (fun response ahead asked router logs => ?_) fun asked router logs => ?_
  · -- On the store, the timeline is what its reports make up
    obtain ⟨line, store, hanswer⟩ : ∃ line store,
        Store.watch type ns name w.store = ⟨.done (.ok line), store, []⟩ := ⟨_, _, rfl⟩
    have hreports := Reports.timeline_ofTimeline (report_of_watch (congrArg Answer.reply hanswer))
    have hserve : w.store.serve (.watch type ns name) =
        (.reports (.done (.ok (Reports.ofTimeline line))), store) := by
      simp only [MemoryStore.serve, hanswer]
      rfl
    have hawait := Reports.await_timeline (Reports.ofTimeline line) patience type ⟨name, ns⟩ store
    rw [hreports] at hawait
    rw [run_watch, hanswer, hserve]
    simp only [hawait, List.append_nil]
    rfl
  · rw [run_watch]
    -- On the transcript, only a response to a watch is one that reports
    match response with
    | .reports (.done (.ok reports)) =>
      have hanswer : Store.watch type ns name
          (⟨.reports (.done (.ok reports)) :: ahead, asked⟩ : Transcript) =
            ⟨.done (.ok reports.timeline), ⟨ahead, asked ++ [.watch type ns name]⟩, []⟩ := rfl
      rw [hanswer]
      simp only [reports.await_timeline patience type ⟨name, ns⟩
        (⟨ahead, asked ++ [.watch type ns name]⟩ : Transcript), List.append_nil]
      rfl
    | .reports (.done (.error _)) | .reports .never | .object _ | .outcome _ => rfl
  · rw [run_watch]
    exact ⟨_, rfl, rfl⟩

/-- Waiting asks for a watch, or for nothing. -/
theorem mirrors_converge (object : Resource) :
    Mirrors (converge s type ns object) (converge s type ns object) := by
  simp only [converge]
  split
  · exact mirrors_pure object
  · exact (mirrors_log _ _).bind fun _ => (mirrors_emit _).bind fun _ =>
      mirrors_watch type ns s.patience object.name

/-- Telling a result asks nothing. -/
theorem mirrors_tell (object : Resource) (text : String) :
    Mirrors (tell object text) (tell object text) :=
  (mirrors_emit _).bind fun _ => mirrors_emit _

/-- Reporting a change asks for a watch, or for nothing. -/
theorem mirrors_report (object : Resource) (text : String) :
    Mirrors (report s type ns object text) (report s type ns object text) :=
  (mirrors_converge s type ns object).bind fun object => mirrors_tell object text

/-- Creating an object asks for it and then perhaps for a watch. -/
theorem mirrors_create (object : Resource) :
    Mirrors (create s type ns object) (create s type ns object) := by
  have hreport := fun created => mirrors_report s type ns created
    ("\"" ++ object.name ++ "\" created")
  simp only [create]
  split
  · exact (mirrors_pure object).bind hreport
  · exact (mirrors_request (.create type ns object) Response.toObject
      (fun _ => eq_of_logs (logs_answer ..)) fun _ => rfl).bind hreport

/-- Patching an object asks for it, if something has to change, and then perhaps for a watch. -/
theorem mirrors_patch (observed desired : Resource) :
    Mirrors (patch s type ns observed desired) (patch s type ns observed desired) := by
  have hreport := fun patched => mirrors_report s type ns patched
    ("\"" ++ observed.name ++ "\" patched")
  simp only [patch]
  -- What the comparison logs comes first, and the patch is asked for if it is not empty
  refine (mirrors_logs _).bind fun _ => ?_
  split
  · exact mirrors_tell observed "nothing to patch"
  · refine (mirrors_log _ _).bind fun _ => ?_
    split
    · exact (mirrors_pure desired).bind hreport
    · exact (mirrors_request (.patch type ns observed.name _) Response.toObject
        (fun _ => eq_of_logs (logs_answer ..)) fun _ => rfl).bind hreport

/-- Saving an object looks it up first, and then patches or creates it. -/
theorem mirrors_save (name : String) (update : Resource → Resource)
    (make : Except Error Resource) :
    Mirrors (save s type ns name update make) (save s type ns name update make) := by
  refine (mirrors_lookUp type ns name).bind fun found => ?_
  cases found with
  | some observed => exact mirrors_patch s type ns observed _
  | none =>
    exact (mirrors_log _ _).bind fun _ => (mirrors_ofExcept make).bind fun object =>
      mirrors_create s type ns object

/-- Deleting an object asks for it. -/
theorem mirrors_delete (name : String) :
    Mirrors (delete s type ns name) (delete s type ns name) := by
  simp only [delete]
  split
  · exact (mirrors_request (.delete type ns name) Response.toOutcome
      (fun _ => eq_of_logs (logs_answer ..)) fun _ => rfl).bind fun _ => mirrors_emit _
  · exact mirrors_emit _

/-- Showing an object gets it. -/
theorem mirrors_show (name : String) (describe : Resource → String) :
    Mirrors («show» s type ns name describe) («show» s type ns name describe) := by
  refine (mirrors_get type ns name).bind fun object => ?_
  split <;> exact mirrors_emit _

end Engine

namespace Command

open BuilderControl.Action Engine

/-- On a transcript, a command asks what it would ask a store. -/
theorem mirrors_run (c : Command) (files : Files) (s : Settings) :
    Mirrors (c.run files s) (c.run files s) := by
  cases c with
  | create account ns name tag stack store order =>
    -- Once the tag is accepted, the order file is read and the builder is created.
    have hcreate : Mirrors
        (do
          let order ← Action.ofExcept (Order.ofFile files order)
          Engine.create s account.type ns (Builder.new account ns name ⟨tag, stack, store, order⟩))
        (do
          let order ← Action.ofExcept (Order.ofFile files order)
          Engine.create s account.type ns
            (Builder.new account ns name ⟨tag, stack, store, order⟩)) :=
      (mirrors_ofExcept _).bind fun _ => mirrors_create s _ ns _
    simp only [Command.run]
    split
    · exact (mirrors_fail _).bind fun _ => hcreate
    · exact hcreate
  | patch type ns name request =>
    exact (mirrors_ofExcept _).bind fun _ => (mirrors_get type ns name).bind fun observed =>
      mirrors_patch s type ns observed _
  | save account ns name request =>
    exact (mirrors_ofExcept _).bind fun _ => mirrors_save s _ ns name _ _
  | delete type ns name => exact mirrors_delete s type ns name
  | get type ns name => exact mirrors_show s type _ name _

end Command

/-! ## Clients that are served without interruption -/

/-- What a client asks is what its invocation asks a store, as long as it hears what that store
would answer. -/
theorem Client.exists_requests (c : Client) (store : MemoryStore) : ∃ requests,
    (c.invocation.perform c.files c.interrupt c.out c.err store).store =
      (store.serveAll requests).2 ∧
    c.hearing (store.serveAll requests).1 =
      { c.invocation.perform c.files c.interrupt c.out c.err store with store := ⟨[], requests⟩ } ∧
    ∀ asked request rest, requests = asked ++ request :: rest →
      c.next? (store.serveAll asked).1 = some request := by
  cases hrouter : Router.ofMode c.invocation.mode .standard c.out c.err with
  -- An invocation without a known format asks nothing
  | error e =>
    refine ⟨[], ?_, ?_, fun asked request rest h => ?_⟩
    · simp only [Invocation.perform, Action.perform, hrouter]
      rfl
    · simp only [hearing, Invocation.perform, Action.perform, hrouter]
      rfl
    · cases asked <;> cases h
  | ok router =>
    obtain ⟨requests, hstore, hwhole, hpart⟩ := Command.mirrors_run c.invocation.command c.files
      { mode := c.invocation.mode, patience := ⟨c.invocation.timeout, c.interrupt⟩ }
      { store, router }
    refine ⟨requests, ?_, ?_, fun asked request rest h => ?_⟩
    · simp only [Invocation.perform, Action.perform, hrouter]
      exact hstore
    · have hheard := hwhole [] []
      rw [List.append_nil, List.nil_append] at hheard
      simp only [hearing, Invocation.perform, Action.perform, hrouter]
      rw [hheard]
    · -- Before it has heard all responses, the client has made one more request than it has heard
      obtain ⟨v, hv, hasked⟩ := hpart asked.length (by simp [h]) []
      have hheard : (store.serveAll requests).1.take asked.length = (store.serveAll asked).1 := by
        rw [h, serveAll_append, List.take_left' (length_serveAll ..)]
      rw [hheard] at hv
      have htranscript : (c.hearing (store.serveAll asked).1).store = v.store := by
        simp only [hearing, Invocation.perform, Action.perform, hrouter]
        rw [hv]
      rw [next?, htranscript, hasked, h, length_serveAll, List.take_length_add_append]
      simp

namespace Scene

variable {n : Nat} {clients : Fin n → Client}

/-- Serving one client all that it asks. -/
private theorem exists_reaches_serveAll {i : Fin n} {store : MemoryStore} {requests : List Request}
    (hnext : ∀ asked request rest, requests = asked ++ request :: rest →
      (clients i).next? (store.serveAll asked).1 = some request) (rest : List Request) :
    ∀ {asked : List Request}, requests = asked ++ rest → ∀ {s : Scene n},
      s.heard i = (store.serveAll asked).1 → s.store = (store.serveAll asked).2 →
      ∃ s', Reaches clients s s' ∧ (∀ j, j ≠ i → s'.heard j = s.heard j) ∧
        s'.heard i = (store.serveAll requests).1 ∧ s'.store = (store.serveAll requests).2 := by
  induction rest with
  | nil =>
    intro asked h s hheard hstore
    rw [List.append_nil] at h
    exact ⟨s, .refl, fun _ _ => rfl, h ▸ hheard, h ▸ hstore⟩
  | cons request rest ih =>
    intro asked h s hheard hstore
    have hserved := hnext asked request rest h
    rw [← hheard] at hserved
    -- The next request is served, and the others after it
    obtain ⟨s', hreaches, hothers, hheard', hstore'⟩ := @ih (asked ++ [request]) (by simp [h])
      (s.serve i request) (by rw [heard_serve_self, hheard, hstore, serveAll_append]; rfl)
      (by rw [serveAll_append, ← hstore]; rfl)
    exact ⟨s', hreaches.head (.serve s i hserved),
      fun j hj => (hothers j hj).trans (heard_serve_of_ne s hj request), hheard', hstore'⟩

/-- A client that is served without interruption leaves the store as its invocation does, and ends
as that does. -/
theorem exists_reaches_perform (i : Fin n) (s : Scene n) (h : s.heard i = []) :
    ∃ s', Reaches clients s s' ∧ (∀ j, j ≠ i → s'.heard j = s.heard j) ∧
      (clients i).next? (s'.heard i) = none ∧
      s'.store = ((clients i).invocation.perform (clients i).files (clients i).interrupt
        (clients i).out (clients i).err s.store).store ∧
      ∃ transcript, (clients i).hearing (s'.heard i) =
        { (clients i).invocation.perform (clients i).files (clients i).interrupt
          (clients i).out (clients i).err s.store with store := transcript } := by
  obtain ⟨requests, hperform, hhearing, hnext⟩ := (clients i).exists_requests s.store
  obtain ⟨s', hreaches, hothers, hheard, hstore⟩ :=
    exists_reaches_serveAll hnext requests (List.nil_append requests).symm h rfl
  refine ⟨s', hreaches, hothers, ?_, by rw [hstore, hperform], ⟨[], requests⟩, ?_⟩
  · rw [hheard, Client.next?, hhearing, length_serveAll, List.getElem?_eq_none (Nat.le_refl _)]
  · rw [hheard, hhearing]

end Scene

end BuilderControl
