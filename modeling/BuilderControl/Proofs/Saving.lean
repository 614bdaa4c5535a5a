import BuilderControl.Proofs.Commuting
import BuilderControl.Proofs.Courses
import BuilderControl.Proofs.Reporting

/-!
# Saving what could be created or patched

`save` looks for an object first.  If it finds one, it goes on as `patch` does from there, and if
there is none, as `create` does: what was recorded and logged before makes no difference to what is
done and said.

## Key results

- `Engine.ignoresPast_create`: creating goes on in the same way, whatever came before
- `Invocation.perform_save_of_found`: `save` without a tag does what `patch` does
- `Invocation.savedAs_create`: `save` looks for the object and then does what `create` does
-/

namespace BuilderControl

open MemoryStore

/-! ## Longer pasts -/

/-- The store if other requests had been recorded before its own. -/
def MemoryStore.after (past : List Call) (s : MemoryStore) : MemoryStore :=
  { s with calls := past ++ s.calls }

/-- The answer of a store with that past. -/
def Answer.after {α : Type} (past : List Call) (a : Answer MemoryStore α) : Answer MemoryStore α :=
  { a with store := a.store.after past }

/-- The world if other requests and other entries had been recorded before its own. -/
def World.after (past : List Call) (logged : List LogEntry) (w : World MemoryStore) :
    World MemoryStore :=
  { w with store := w.store.after past, logs := logged ++ w.logs }

namespace MemoryStore

variable (past : List Call)

/-- What a store answers does not depend on the requests that it has recorded. -/
theorem unseen_after : Unseen (MemoryStore.after past) := fun kind target type ns name s => by
  simp only [enter, after, List.append_assoc]

/-- A `create` is answered in the same way after other requests. -/
theorem create_after (type : ResourceType) (ns : Option String) (object : Resource)
    (s : MemoryStore) :
    Store.create type ns object (s.after past) = (Store.create type ns object s).after past := by
  refine answer_changed (unseen_after past) _ _ _ _ _ _ _ fun t _ => ?_
  cases hcontains : t.objects.contains (.ofLocation type ns object.name) <;>
    simp only [after, hcontains] <;> rfl

/-- A watch is started in the same way after other requests. -/
theorem watch_after (type : ResourceType) (ns : Option String) (name : String) (s : MemoryStore) :
    Store.watch type ns name (s.after past) = (Store.watch type ns name s).after past := by
  simp only [Store.watch, enter, after, Answer.after, List.append_assoc]

/-- Where no fault is planned for a request, all planned faults stay. -/
theorem takeFault_of_none {target : FaultTarget} {faults : List PlannedFault}
    (h : (takeFault target faults).1 = none) : takeFault target faults = (none, faults) := by
  induction faults with
  | nil => rfl
  | cons fault faults ih =>
    simp only [takeFault] at h ⊢
    split at h
    · cases h
    · rename_i htarget
      rw [if_neg htarget, ih h]

/-- Looking for an object that is not there is recorded, and changes nothing else. -/
theorem get_of_missing {type : ResourceType} {ns : Option String} {name : String} {s : MemoryStore}
    (hmissing : Entries.get? s.objects (.ofLocation type ns name) = none)
    (hfault : (takeFault (.operation .get) s.faults).1 = none) :
    Store.get type ns name s = {
      reply := .done (.error (.remote .get type ⟨name, ns⟩ (.refused (notFound type name))))
      store := { s with calls := s.calls ++ [⟨.get, type, ns, name⟩] } } := by
  simp only [Store.get, enter, takeFault_of_none hfault, answer, hmissing]

end MemoryStore

/-- Actions that go on in the same way, whatever was recorded before. -/
def Action.IgnoresPast {α : Type} (x : Action MemoryStore α) : Prop :=
  ∀ past logged w, x.run (w.after past logged) = ((x.run w).1, (x.run w).2.after past logged)

open BuilderControl.Action in
/-- Creating goes on in the same way, whatever came before. -/
theorem Engine.ignoresPast_create (s : Settings) (type : ResourceType) (ns : Option String)
    (object : Resource) : IgnoresPast (create s type ns object) := by
  intro past logged w
  have hreport : ∀ (created : Resource) (u : World MemoryStore),
      CommutesAt (MemoryStore.after past) logged
        (report s type ns created ("\"" ++ object.name ++ "\" created")) u := fun created _ =>
    commutesAt_report (watch_after past type ns created.name) s rfl _
  show CommutesAt (MemoryStore.after past) logged (create s type ns object) w
  simp only [create]
  -- A dry run makes no request, the other one makes one
  split
  · exact (commutesAt_pure object).bind fun created u _ => hreport created u
  · exact (commutesAt_request (create_after past type ns object w.store)).bind fun created u _ =>
      hreport created u

/-! ## Found objects -/

namespace Command

open BuilderControl.Action Engine

variable {σ : Type} [Store σ]

/-- What was found is changed by `save` as it is by `patch`. -/
theorem run_save_of_found (account : Builder.Account) {ns : Option String} {name : String}
    (request : ChangeRequest) (files : Files) (s : Settings) {w : World MemoryStore}
    {observed : Resource} (h : (Store.get account.type ns name w.store).reply = .done (.ok observed)) :
    (run (.save account ns name request) files s).run w =
      (run (.patch account.type ns name request) files s).run w := by
  cases hread : request.read files with
  | error e =>
    have hsave : Rejects files (.save account ns name request) e := .changes (.save account rfl) hread
    rw [run_of_rejects hsave, run_of_rejects (.changes .patch hread)]
  | ok changes =>
    -- Both have the same object before them, and go on with the same changes
    have hsave := (run_ofExcept_bind_ok hread (fun changes => Engine.save s account.type ns name
      changes.apply ((changes.content.mapError Error.invalid).map (Builder.new account ns name)))
      (w := w)).trans (run_lookUp_bind _)
    rw [h] at hsave
    exact hsave.trans ((run_ofExcept_bind_ok hread _).trans (run_request_bind_ok h _)).symm

end Command

/-! ## Missing objects -/

namespace Command

/-- All that it takes to create is given, and whatever is given is not empty. -/
structure ChangeRequest.IsComplete (request : ChangeRequest) (tag path : String) : Prop where
  tag_eq : request.tag = some tag
  tag_ne : tag ≠ ""
  order_eq : request.order = some path
  order_ne : path ≠ ""
  stack_ne : request.stack ≠ some ""
  store_ne : request.store ≠ some ""

namespace ChangeRequest.IsComplete

variable {request : ChangeRequest} {tag path : String} (h : request.IsComplete tag path)
  {files : Files}
include h

/-- The path of the order is given, as it is not empty. -/
theorem filter_order : request.order.filter (· ≠ "") = some path := by
  rw [h.order_eq]
  simpa using h.order_ne

/-- A complete request is read with all that it gives. -/
theorem read_ok {order : List Json} (horder : Order.ofFile files path = .ok order) :
    request.read files = .ok ⟨some tag, request.stack, request.store, some order⟩ := by
  -- Values that are not empty are not dropped
  have hgiven : ∀ {value : Option String}, value ≠ some "" → value.filter (· ≠ "") = value := by
    intro value hvalue
    rcases value with _ | text
    · rfl
    · simpa using hvalue
  have htag : request.tag.filter (· ≠ "") = some tag := by
    rw [h.tag_eq]
    simpa using h.tag_ne
  simp only [read, htag, hgiven h.stack_ne, hgiven h.store_ne, h.filter_order, Option.mapM_some,
    horder]
  rfl

end ChangeRequest.IsComplete

section Missing

open BuilderControl.Action

variable (account : Builder.Account) {ns : Option String} {name : String} {request : ChangeRequest}
  {tag path : String} (h : request.IsComplete tag path) {files : Files} (s : Settings)
include h

/-- `create` of all that the request gives submits the new builder. -/
theorem run_create_of_complete {order : List Json} (horder : Order.ofFile files path = .ok order)
    (w : World MemoryStore) :
    (run (.create account ns name tag (request.stack.getD "default")
        (request.store.getD "default") path) files s).run w =
      (Engine.create s account.type ns (Builder.new account ns name
        ⟨tag, request.stack.getD "default", request.store.getD "default", order⟩)).run w := by
  have htag : tag.isEmpty = false := by simpa using h.tag_ne
  simp only [run, htag, Bool.false_eq_true, if_false]
  exact run_ofExcept_bind_ok horder _

/-- A missing object is created, after it was looked for. -/
theorem run_save_of_missing {order : List Json} (horder : Order.ofFile files path = .ok order)
    {w : World MemoryStore}
    (hmissing : Entries.get? w.store.objects (.ofLocation account.type ns name) = none)
    (hfault : (takeFault (.operation .get) w.store.faults).1 = none) :
    (run (.save account ns name request) files s).run w =
      (Engine.create s account.type ns (Builder.new account ns name
        ⟨tag, request.stack.getD "default", request.store.getD "default", order⟩)).run { w with
          store := { w.store with calls := w.store.calls ++ [⟨.get, account.type, ns, name⟩] }
          logs := w.logs ++
            [⟨.debug, account.type.name ++ " \"" ++ name ++ "\" not found, creating"⟩] } := by
  have hget := get_of_missing hmissing hfault
  have hsave := (run_ofExcept_bind_ok (h.read_ok horder) (fun changes => Engine.save s account.type
    ns name changes.apply
    ((changes.content.mapError Error.invalid).map (Builder.new account ns name)))
    (w := w)).trans (run_lookUp_bind _)
  rw [hget] at hsave
  -- Not to be found is no failure to `save`
  refine hsave.trans ?_
  simp only [Reply.found, Error.isNotFound, notFound, refusal, World.asked, hget, List.append_nil]
  rfl

end Missing

end Command

/-! ## Endings -/

/-- How `save` ends if it creates, from how `create` ends: it says the same, and has looked for the
object first, if it got that far.  If it did not, both have failed without a call. -/
structure Ending.SavedAs (s : MemoryStore) (get : Call) (reaches : Prop)
    (created saved : Ending MemoryStore) : Prop where
  halt : saved.halt = created.halt
  out : saved.out = created.out
  err : saved.err = created.err
  store : saved.store = { created.store with calls := saved.store.calls }
  calls : ∃ made, created.store.calls = s.calls ++ made ∧
    (reaches → saved.store.calls = s.calls ++ get :: made) ∧
    (¬ reaches → made = [] ∧ saved.store.calls = s.calls ∧ created.halt ≠ none ∧
      saved.halt ≠ none)

/-- A mode whose format is not known has no router. -/
theorem Mode.exists_refused {m : Mode} (h : ¬ m.IsSupported) (registry : Registry)
    (out err : Sink) : ∃ refused, Router.ofMode m registry out err = .error refused := by
  obtain ⟨dryRun, _ | format, wait⟩ := m
  · exact absurd List.mem_cons_self h
  · have hyaml : format ≠ "yaml" := by rintro rfl; simp [IsSupported] at h
    have hjson : format ≠ "json" := by rintro rfl; simp [IsSupported] at h
    have hformat : Format.ofName format = .error (.unknownFormat format) := by
      rw [Format.ofName, if_neg hyaml, if_neg hjson]
    refine ⟨.unknownFormat format, ?_⟩
    simp only [Router.ofMode, Option.mapM_some, hformat]
    rfl

namespace Invocation

variable (mode : Mode) (timeout : Duration) (account : Builder.Account) {ns : Option String}
  {name : String} (files : Files) (interrupt : Option Nat) (out err : Sink) {s : MemoryStore}

/-- What is found is saved by patching it, whatever account there would be for a new builder. -/
theorem perform_save_of_found (request : Command.ChangeRequest) {observed : Resource}
    (h : (Store.get account.type ns name s).reply = .done (.ok observed)) :
    perform ⟨.save account ns name request, mode, timeout⟩ files interrupt out err s =
      perform ⟨.patch account.type ns name request, mode, timeout⟩ files interrupt out err s := by
  cases hrouter : Router.ofMode mode .standard out err with
  | error refused => simp only [perform, Action.perform, hrouter]
  | ok router =>
    rw [perform_eq hrouter, perform_eq hrouter]
    simp only [Command.run_save_of_found (w := { store := s, router }) account request files _ h]

/-- What is missing is saved by creating it. -/
theorem savedAs_create {request : Command.ChangeRequest} {tag path : String}
    (h : request.IsComplete tag path)
    (hmissing : Entries.get? s.objects (.ofLocation account.type ns name) = none)
    (hfault : (takeFault (.operation .get) s.faults).1 = none) :
    Ending.SavedAs s ⟨.get, account.type, ns, name⟩
      (mode.IsSupported ∧ ∃ order, Order.ofFile files path = .ok order)
      (perform ⟨.create account ns name tag (request.stack.getD "default")
        (request.store.getD "default") path, mode, timeout⟩ files interrupt out err s)
      (perform ⟨.save account ns name request, mode, timeout⟩ files interrupt out err s) := by
  by_cases hsupported : mode.IsSupported
  · obtain ⟨router, hrouter⟩ := hsupported.exists_router .standard out err
    rw [perform_eq hrouter, perform_eq hrouter]
    cases horder : Order.ofFile files path with
    | error e =>
      -- Both read the order first, so neither makes a request
      have hcreate := Command.Rejects.order account ns name (request.stack.getD "default")
        (request.store.getD "default") h.tag_ne horder
      have hsave : Command.Rejects files (.save account ns name request) e :=
        .changes (.save account rfl) (Command.ChangeRequest.read_error h.filter_order horder)
      simp only [Command.run_of_rejects hcreate, Command.run_of_rejects hsave]
      refine ⟨rfl, rfl, rfl, rfl, [], (List.append_nil _).symm, ?_, fun _ => ?_⟩
      · rintro ⟨-, order, horder⟩
        cases horder
      · exact ⟨rfl, rfl, Option.some_ne_none _, Option.some_ne_none _⟩
    | ok order =>
      -- Both are the run from a store without a past
      have hpast := Engine.ignoresPast_create { mode, patience := ⟨timeout, interrupt⟩ } account.type ns
        (Builder.new account ns name
          ⟨tag, request.stack.getD "default", request.store.getD "default", order⟩)
      have hcreate := hpast s.calls [] { store := { s with calls := [] }, router }
      have hsave := hpast (s.calls ++ [⟨.get, account.type, ns, name⟩])
        [⟨.debug, account.type.name ++ " \"" ++ name ++ "\" not found, creating"⟩]
        { store := { s with calls := [] }, router }
      simp only [World.after, MemoryStore.after, List.append_nil] at hcreate hsave
      simp only [Command.run_create_of_complete account h _ horder,
        Command.run_save_of_missing account h _ horder (w := { store := s, router }) hmissing hfault,
        hcreate, List.nil_append, hsave]
      -- The calls of both are those of that run, after their own past
      refine ⟨rfl, rfl, rfl, rfl, _, rfl, fun _ => ?_, fun hreaches => ?_⟩
      · exact List.append_assoc _ _ _
      · exact absurd ⟨hsupported, order, rfl⟩ hreaches
  · -- With an unknown format, neither command runs
    obtain ⟨refused, hrouter⟩ := Mode.exists_refused hsupported .standard out err
    simp only [perform, Action.perform, hrouter]
    refine ⟨rfl, rfl, rfl, rfl, [], (List.append_nil _).symm, fun hreaches => ?_, fun _ => ?_⟩
    · exact absurd hreaches.1 hsupported
    · exact ⟨rfl, rfl, Option.some_ne_none _, Option.some_ne_none _⟩

end Invocation

end BuilderControl
