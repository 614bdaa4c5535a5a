import BuilderControl.Proofs.Conversations

/-!
# Runs from changed stores

If a store is changed in a way that its answers do not depend on, an action goes on as before, and
what it leaves is changed in the same way.  This is asked of one world at a time, so that what a run
has found out so far can be used for what comes next.

## Key results

- `MemoryStore.answer_changed`: a change that a request does not see is there afterwards
- `Action.CommutesAt.bind`: one step after the other
- `Engine.commutesAt_report`: waiting and telling go on as before
-/

namespace BuilderControl

variable {σ α β : Type}

/-- The answer with the store behind it changed. -/
def Answer.changed (f : σ → σ) (a : Answer σ α) : Answer σ α := { a with store := f a.store }

/-- The world with its store changed, if other entries had been logged before its own. -/
def World.changed (f : σ → σ) (earlier : List LogEntry) (w : World σ) : World σ :=
  { w with store := f w.store, logs := earlier ++ w.logs }

namespace MemoryStore

/-- A change that leaves alone which requests fail, and what is recorded after it. -/
def Unseen (f : MemoryStore → MemoryStore) : Prop :=
  ∀ kind target type ns name s, (f s).enter kind target type ns name =
    ((s.enter kind target type ns name).1, f (s.enter kind target type ns name).2)

/-- What a store answers is not changed by a change that the request itself does not see. -/
theorem answer_changed {f : MemoryStore → MemoryStore} (hf : Unseen f) (op : Operation)
    (kind : CallKind) (target : FaultTarget) (type : ResourceType) (ns : Option String)
    (name : String) (s : MemoryStore)
    {act : MemoryStore → Except Api.ErrorResponse (Except Error α × MemoryStore)}
    (hact : ∀ t : MemoryStore, t.objects = s.objects → act (f t) = (act t).map fun r => (r.1, f r.2)) :
    answer op type ns name ((f s).enter kind target type ns name) act =
      (answer op type ns name (s.enter kind target type ns name) act).changed f := by
  have hobjects : (s.enter kind target type ns name).2.objects = s.objects := rfl
  -- Which fault is taken is the same, so only what the request does is left
  rw [hf]
  generalize s.enter kind target type ns name = entered at hobjects ⊢
  obtain ⟨_ | response, t⟩ := entered
  · simp only [answer, hact t hobjects]
    cases act t <;> rfl
  · rfl

end MemoryStore

namespace Action

/-- From the changed world the action does what it does from the world itself, and what it leaves
is changed in the same way. -/
def CommutesAt (f : σ → σ) (earlier : List LogEntry) (x : Action σ α) (w : World σ) : Prop :=
  x.run (w.changed f earlier) = ((x.run w).1, (x.run w).2.changed f earlier)

variable {f : σ → σ} {earlier : List LogEntry} {w : World σ}

/-- One step after the other: the second one only has to go on as before where the first one leads.
-/
theorem CommutesAt.bind {x : Action σ α} (hx : CommutesAt f earlier x w) {y : α → Action σ β}
    (hy : ∀ a w', x.run w = (.ok a, w') → CommutesAt f earlier (y a) w') :
    CommutesAt f earlier (x >>= y) w := by
  rw [CommutesAt, run_bind, run_bind, hx]
  cases hrun : x.run w with
  | mk result u =>
    cases result with
    | ok a => exact hy a u hrun
    | error halt =>
      -- The second step is not taken
      rfl

/-- A result does not depend on the store. -/
theorem commutesAt_pure (a : α) : CommutesAt f earlier (pure a) w := rfl

/-- A result that is given already does not depend on the store. -/
theorem commutesAt_ofExcept (result : Except Error α) :
    CommutesAt f earlier (ofExcept result) w := by
  rw [CommutesAt, run_ofExcept, run_ofExcept]

/-- Entries that are logged come after the earlier ones. -/
theorem commutesAt_logs (entries : List LogEntry) :
    CommutesAt f earlier (modify fun w : World σ => { w with logs := w.logs ++ entries }) w := by
  simp only [CommutesAt, run_modify, World.changed, List.append_assoc]

/-- One entry that is logged comes after the earlier ones. -/
theorem commutesAt_log (level : Level) (text : String) :
    CommutesAt f earlier (log level text) w :=
  commutesAt_logs [⟨level, text⟩]

/-- What is written does not depend on the store. -/
theorem commutesAt_emit (write : Router → Except Error Unit × Router) :
    CommutesAt f earlier (emit write) w := by
  rw [CommutesAt, run_emit, run_emit]
  rfl

/-- A request whose answer is not changed goes on as before. -/
theorem commutesAt_request {call : σ → Answer σ α}
    (h : call (f w.store) = (call w.store).changed f) : CommutesAt f earlier (request call) w := by
  have hcall : call (w.changed f earlier).store = (call w.store).changed f := h
  rw [CommutesAt, run_request, run_request, hcall]
  simp only [World.changed, Answer.changed, List.append_assoc]

end Action

namespace Engine

open BuilderControl.Action MemoryStore

/-- A look-up whose `get` is answered as before goes on as before. -/
theorem commutesAt_lookUp [Store σ] {f : σ → σ} {earlier : List LogEntry} {w : World σ}
    {type : ResourceType} {ns : Option String} {name : String}
    (h : Store.get type ns name (f w.store) = (Store.get type ns name w.store).changed f) :
    CommutesAt f earlier (lookUp type ns name) w := by
  have hget : Store.get type ns name (w.changed f earlier).store =
      (Store.get type ns name w.store).changed f := h
  rw [CommutesAt, run_lookUp, run_lookUp, hget]
  simp only [World.changed, Answer.changed, List.append_assoc]

section Watch

variable {f : MemoryStore → MemoryStore} {type : ResourceType} {ns : Option String} {name : String}
  (h : ∀ s, Store.watch type ns name (f s) = (Store.watch type ns name s).changed f)
  {earlier : List LogEntry} {w : World MemoryStore}
include h

/-- A watch that is answered as before goes on as before. -/
theorem commutesAt_watch (patience : Patience) :
    CommutesAt f earlier (watch patience type ns name) w := by
  obtain ⟨line, store, hanswer⟩ : ∃ line store,
      Store.watch type ns name w.store = ⟨.done (.ok line), store, []⟩ := ⟨_, _, rfl⟩
  have hchanged : Store.watch type ns name (w.changed f earlier).store =
      ⟨.done (.ok line), f store, []⟩ := by
    rw [World.changed, h, hanswer]
    rfl
  -- What is reported is followed in the same way in every store
  have hawait : ∀ t : MemoryStore, line.await patience type ⟨name, ns⟩ t =
      let outcome := (Reports.ofTimeline line).timeline.await patience type ⟨name, ns⟩ ()
      { outcome with store := t } := fun t => by
    have hfollow := (Reports.ofTimeline line).await_timeline patience type ⟨name, ns⟩ t
    rwa [Reports.timeline_ofTimeline (report_of_watch (congrArg Answer.reply hanswer))] at hfollow
  rw [CommutesAt, run_watch, run_watch, hanswer, hchanged]
  simp only [hawait, World.changed, List.append_assoc]

/-- Waiting for an object goes on as before if its watch does. -/
theorem commutesAt_converge (s : Settings) {object : Resource} (hname : object.name = name) :
    CommutesAt f earlier (converge s type ns object) w := by
  subst hname
  simp only [converge]
  split
  · exact commutesAt_pure object
  · -- It is logged and told that there is a wait, and only then the watch is made
    exact (commutesAt_log _ _).bind fun _ _ _ => (commutesAt_emit _).bind fun _ _ _ =>
      commutesAt_watch h s.patience

/-- Waiting for an object and telling a result go on as before if the watch does. -/
theorem commutesAt_report (s : Settings) {object : Resource} (hname : object.name = name)
    (text : String) : CommutesAt f earlier (report s type ns object text) w :=
  (commutesAt_converge h s hname).bind fun _ _ _ => (commutesAt_emit _).bind fun _ _ _ =>
    commutesAt_emit _

end Watch

end Engine

end BuilderControl
