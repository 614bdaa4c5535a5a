import BuilderControl.Invocation
import BuilderControl.Proofs.Actions

/-!
# Reporting and waiting do not touch the store

Every command first makes the requests that its result depends on, then waits and reports.  Two
runs that differ in how they wait and report stay in lockstep up to there; what comes after starts
one watch at most, also when it fails.

## Key results

- `Action.Lockstep.bind`: actions that make the same requests, one after the other
- `Action.Lockstep.bind_parallel`: what they may be followed by
- `Task.perform_agree`: two runs that wait and report differently leave the same store
-/

namespace BuilderControl

open MemoryStore

namespace MemoryStore

/-- Stores that answer alike: only what watches report may be different. -/
structure Alike (s t : MemoryStore) : Prop where
  objects : s.objects = t.objects
  calls : s.calls = t.calls
  faults : s.faults = t.faults

/-- The given calls, perhaps with a watch after them. -/
def MayWatch (calls calls' : List Call) : Prop :=
  calls' = calls ∨ ∃ type ns name, calls' = calls ++ [⟨.watch, type, ns, name⟩]

/-- Stores with the same objects and the same calls, to each of which a watch may be added. -/
structure AlikeButWatch (s t : MemoryStore) : Prop where
  objects : s.objects = t.objects
  calls : ∃ calls, MayWatch calls s.calls ∧ MayWatch calls t.calls

/-- Answers that differ at most in what later watches report. -/
structure AnswersAlike {α : Type} (a b : Answer MemoryStore α) : Prop where
  reply : a.reply = b.reply
  store : a.store.Alike b.store

/-- What two stores do with a request, apart from planned faults. -/
def ActsAlike {α : Type} :
    (a b : Except Api.ErrorResponse (Except Error α × MemoryStore)) → Prop
  | .error e, .error f => e = f
  | .ok (r, s), .ok (q, t) => r = q ∧ s.Alike t
  | _, _ => False

section Requests

variable {α : Type} {s t : MemoryStore} (h : s.Alike t)
include h

/-- Alike stores answer alike, if they do the same where no fault is planned. -/
theorem answersAlike_answer (op : Operation) (kind : CallKind) (target : FaultTarget)
    (type : ResourceType) (ns : Option String) (name : String)
    {act : MemoryStore → Except Api.ErrorResponse (Except Error α × MemoryStore)}
    (hact : ∀ {s t : MemoryStore}, s.Alike t → ActsAlike (act s) (act t)) :
    AnswersAlike (answer op type ns name (s.enter kind target type ns name) act)
      (answer op type ns name (t.enter kind target type ns name) act) := by
  obtain ⟨hobjects, hcalls, hfaults⟩ := h
  have hentered : ∀ faults : List PlannedFault,
      Alike { s with calls := s.calls ++ [⟨kind, type, ns, name⟩], faults := faults }
        { t with calls := t.calls ++ [⟨kind, type, ns, name⟩], faults := faults } :=
    fun faults => ⟨hobjects, by rw [hcalls], rfl⟩
  simp only [enter, hfaults]
  -- The same fault is planned on both sides, or none
  cases (takeFault target t.faults).1 with
  | some response => exact ⟨rfl, hentered _⟩
  | none =>
    -- What is done from there on is done alike
    have hacts := hact (hentered (takeFault target t.faults).2)
    simp only [answer]
    split
    · rename_i response hs
      split
      · rename_i response' ht
        rw [hs, ht] at hacts
        cases hacts
        exact ⟨rfl, hentered _⟩
      · rename_i ht
        rw [hs, ht] at hacts
        exact hacts.elim
    · rename_i result store hs
      split
      · rename_i ht
        rw [hs, ht] at hacts
        exact hacts.elim
      · rename_i result' store' ht
        rw [hs, ht] at hacts
        exact ⟨congrArg Reply.done hacts.1, hacts.2⟩

/-- Alike stores find the same object. -/
theorem answersAlike_get (type : ResourceType) (ns : Option String) (name : String) :
    AnswersAlike (Store.get type ns name s) (Store.get type ns name t) := by
  refine answersAlike_answer h _ _ _ _ _ _ fun {s t} h => ?_
  simp only [h.objects]
  cases Entries.get? t.objects (.ofLocation type ns name) with
  | none => rfl
  | some document => exact ⟨rfl, h⟩

/-- Alike stores create the same object, or refuse it. -/
theorem answersAlike_create (type : ResourceType) (ns : Option String) (object : Resource) :
    AnswersAlike (Store.create type ns object s) (Store.create type ns object t) := by
  refine answersAlike_answer h _ _ _ _ _ _ fun {s t} h => ?_
  simp only [h.objects]
  split
  · rfl
  · exact ⟨rfl, rfl, h.calls, h.faults⟩

/-- Alike stores patch the same object in the same way. -/
theorem answersAlike_patch (type : ResourceType) (ns : Option String) (name : String)
    (patch : MergePatch) :
    AnswersAlike (Store.patch type ns name patch s) (Store.patch type ns name patch t) := by
  refine answersAlike_answer h _ _ _ _ _ _ fun {s t} h => ?_
  simp only [h.objects]
  cases Entries.get? t.objects (.ofLocation type ns name) with
  | none => rfl
  | some document => exact ⟨rfl, rfl, h.calls, h.faults⟩

/-- Alike stores delete the same object, or miss it. -/
theorem answersAlike_delete (type : ResourceType) (ns : Option String) (name : String) :
    AnswersAlike (Store.delete type ns name s) (Store.delete type ns name t) := by
  refine answersAlike_answer h _ _ _ _ _ _ fun {s t} h => ?_
  simp only [h.objects]
  split
  · exact ⟨rfl, rfl, h.calls, h.faults⟩
  · rfl

end Requests

/-- Where one watch at most was started, one call at most was added. -/
theorem Watches.mayWatch {s t : MemoryStore} (h : s.Watches t) : MayWatch s.calls t.calls := by
  obtain ⟨watches, hcalls, rfl | ⟨type, ns, name, rfl⟩⟩ := h.calls
  · exact Or.inl (hcalls.trans (List.append_nil _))
  · exact Or.inr ⟨type, ns, name, hcalls⟩

/-- What stays of likeness when watches are started. -/
theorem Alike.butWatch {s t s' t' : MemoryStore} (h : s.Alike t) (hs : s.Watches s')
    (ht : t.Watches t') : s'.AlikeButWatch t' where
  objects := by rw [hs.objects, ht.objects, h.objects]
  calls := ⟨s.calls, hs.mayWatch, by
    rw [h.calls]
    exact ht.mayWatch⟩

end MemoryStore

namespace Action

variable {α β : Type} {x y : Action MemoryStore α}

/-! ## Actions in lockstep -/

/-- Actions that end in the same way with stores that are still alike. -/
def Lockstep (x y : Action MemoryStore α) : Prop :=
  ∀ w v : World MemoryStore, w.store.Alike v.store →
    (x.run w).1 = (y.run v).1 ∧ (x.run w).2.store.Alike (y.run v).2.store

/-- Actions after which the stores differ by a watch at most. -/
def Parallel (x y : Action MemoryStore α) : Prop :=
  ∀ w v : World MemoryStore, w.store.Alike v.store →
    (x.run w).2.store.AlikeButWatch (y.run v).2.store

/-- Giving a value keeps stores alike. -/
theorem lockstep_pure (a : α) : Lockstep (pure a) (pure a) := fun _ _ h => ⟨rfl, h⟩

/-- Logging some lines keeps stores alike. -/
theorem lockstep_logs (entries : List LogEntry) :
    Lockstep (modify fun w => { w with logs := w.logs ++ entries })
      (modify fun w => { w with logs := w.logs ++ entries }) := fun _ _ h => ⟨rfl, h⟩

/-- Logging a line keeps stores alike. -/
theorem lockstep_log (level : Level) (text : String) :
    Lockstep (log level text) (log level text) := lockstep_logs [⟨level, text⟩]

/-- Looking at what was read keeps stores alike. -/
theorem lockstep_ofExcept (result : Except Error α) :
    Lockstep (ofExcept result) (ofExcept result) := by
  intro w v h
  rw [run_ofExcept, run_ofExcept]
  exact ⟨rfl, h⟩

/-- Failing keeps stores alike. -/
theorem lockstep_fail (e : Error) : Lockstep (fail e : Action MemoryStore α) (fail e) :=
  lockstep_ofExcept (.error e)

/-- The same request to alike stores is answered alike. -/
theorem lockstep_request {call : MemoryStore → Answer MemoryStore α}
    (h : ∀ {s t : MemoryStore}, s.Alike t → AnswersAlike (call s) (call t)) :
    Lockstep (request call) (request call) := by
  intro w v hstores
  obtain ⟨hreply, hstore⟩ := h hstores
  rw [run_request, run_request]
  exact ⟨by simp only [hreply], hstore⟩

/-- Steps in lockstep may follow one another. -/
theorem Lockstep.bind (h : Lockstep x y) {f g : α → Action MemoryStore β}
    (hf : ∀ a, Lockstep (f a) (g a)) : Lockstep (x >>= f) (y >>= g) := by
  intro w v hstores
  obtain ⟨hresult, hafter⟩ := h w v hstores
  rw [run_bind, run_bind]
  -- Both first steps end in the same way, so both go on or neither does
  cases hx : x.run w with
  | mk r w' =>
    cases hy : y.run v with
    | mk q v' =>
      rw [hx, hy] at hresult hafter
      cases hresult
      cases r with
      | ok a => exact hf a w' v' hafter
      | error e => exact ⟨rfl, hafter⟩

/-- Whatever starts one watch at most may follow. -/
theorem parallel_of_watches (hx : Along Watches x) (hy : Along Watches y) : Parallel x y :=
  fun w v h => h.butWatch (hx w) (hy v)

/-- After the same requests, the runs may go apart. -/
theorem Lockstep.bind_parallel (h : Lockstep x y) {f g : α → Action MemoryStore β}
    (hf : ∀ a, Parallel (f a) (g a)) : Parallel (x >>= f) (y >>= g) := by
  intro w v hstores
  obtain ⟨hresult, hafter⟩ := h w v hstores
  rw [run_bind, run_bind]
  cases hx : x.run w with
  | mk r w' =>
    cases hy : y.run v with
    | mk q v' =>
      rw [hx, hy] at hresult hafter
      cases hresult
      cases r with
      | ok a => exact hf a w' v' hafter
      | error e => exact hafter.butWatch (Watches.refl _) (Watches.refl _)

end Action

/-! ## The steps of commands -/

namespace Engine

open BuilderControl.Action

/-- What leaves the store alone starts no watch. -/
theorem along_watches_of_quiet {α : Type} {x : Action MemoryStore α} (h : Quiet x) :
    Along Watches x := fun w => by
  have hstore : (x.run w).2.store = w.store := h w
  rw [hstore]
  exact Watches.refl w.store

section Parallel

variable {s t : Settings} (hdry : s.mode.dryRun = t.mode.dryRun) (type : ResourceType)
  (ns : Option String)
include hdry

omit hdry in
/-- Reports may go apart, as they only wait and write. -/
theorem parallel_report (object : Resource) (text : String) :
    Parallel (report s type ns object text) (report t type ns object text) :=
  parallel_of_watches (along_report (along_converge s type ns object) text)
    (along_report (along_converge t type ns object) text)

/-- Creations go apart once they are reported. -/
theorem parallel_create (object : Resource) :
    Parallel (create s type ns object) (create t type ns object) := by
  have hreport := fun created => parallel_report (s := s) (t := t) type ns created
    ("\"" ++ object.name ++ "\" created")
  simp only [create, hdry]
  split
  · exact (lockstep_pure object).bind_parallel hreport
  · exact (lockstep_request fun h => answersAlike_create h type ns object).bind_parallel hreport

/-- Patches go apart once they are reported. -/
theorem parallel_patch (hdiffer : s.differ = t.differ) (observed desired : Resource) :
    Parallel (patch s type ns observed desired) (patch t type ns observed desired) := by
  have hreport := fun patched => parallel_report (s := s) (t := t) type ns patched
    ("\"" ++ observed.name ++ "\" patched")
  simp only [patch, hdry, hdiffer]
  -- Both find the same difference, so both submit it or neither does
  refine (lockstep_logs _).bind_parallel fun _ => ?_
  split
  · exact parallel_of_watches (along_watches_of_quiet (quiet_tell observed "nothing to patch"))
      (along_watches_of_quiet (quiet_tell observed "nothing to patch"))
  · refine (lockstep_log _ _).bind_parallel fun _ => ?_
    split
    · exact (lockstep_pure desired).bind_parallel hreport
    · exact (lockstep_request fun h =>
        answersAlike_patch h type ns observed.name _).bind_parallel hreport

omit hdry in
/-- The same look-up in alike stores finds the same. -/
theorem lockstep_lookUp (name : String) :
    Lockstep (lookUp type ns name) (lookUp type ns name) := by
  intro w v hstores
  obtain ⟨hreply, hstore⟩ := answersAlike_get hstores type ns name
  rw [run_lookUp, run_lookUp]
  exact ⟨by simp only [hreply], hstore⟩

/-- Saves go apart once what they patched or created is reported. -/
theorem parallel_save (hdiffer : s.differ = t.differ) (name : String)
    (update : Resource → Resource) (make : Except Error Resource) :
    Parallel (save s type ns name update make) (save t type ns name update make) := by
  refine (lockstep_lookUp type ns name).bind_parallel fun found => ?_
  -- Both find the same object, or both find none
  cases found with
  | some observed => exact parallel_patch hdry type ns hdiffer observed _
  | none =>
    exact (lockstep_log _ _).bind_parallel fun _ => (lockstep_ofExcept make).bind_parallel
      fun object => parallel_create hdry type ns object

/-- Deletions go apart once they are told. -/
theorem parallel_delete (name : String) :
    Parallel (delete s type ns name) (delete t type ns name) := by
  have hreport : Along Watches
      (emit (·.emitResult ("\"" ++ name ++ "\" deleted")) : Action MemoryStore Unit) :=
    along_watches_of_quiet (quiet_emit _)
  simp only [delete, hdry]
  -- Both are dry runs, or both are not
  split
  · exact (lockstep_request fun h => answersAlike_delete h type ns name).bind_parallel fun _ =>
      parallel_of_watches hreport hreport
  · exact parallel_of_watches hreport hreport

omit hdry in
/-- Both show the same object, each in its own way. -/
theorem parallel_show (name : String) (describe : Resource → String) :
    Parallel («show» s type ns name describe) («show» t type ns name describe) := by
  simp only [«show»]
  refine (lockstep_request fun h => answersAlike_get h type ns name).bind_parallel fun object =>
    parallel_of_watches (along_watches_of_quiet ?_) (along_watches_of_quiet ?_) <;>
  · split <;> exact quiet_emit _

end Parallel

end Engine

/-! ## Tasks -/

/-- What can be run: a command, or one of the steps that commands share. -/
inductive Task where
  | command (command : Command) (files : Files)
  | create (type : ResourceType) (ns : Option String) (object : Resource)
  | patch (type : ResourceType) (ns : Option String) (observed desired : Resource)
  | save (type : ResourceType) (ns : Option String) (name : String)
      (update : Resource → Resource) (make : Except Error Resource)
  | delete (type : ResourceType) (ns : Option String) (name : String)
  | «show» (type : ResourceType) (ns : Option String) (name : String)
      (describe : Resource → String)

namespace Task

open BuilderControl.Action Engine

/-- The action of a task. -/
def action (s : Settings) : Task → Action MemoryStore Unit
  | command c files => c.run files s
  | create type ns object => Engine.create s type ns object
  | patch type ns observed desired => Engine.patch s type ns observed desired
  | save type ns name update make => Engine.save s type ns name update make
  | delete type ns name => Engine.delete s type ns name
  | «show» type ns name describe => Engine.show s type ns name describe

/-- Runs a task from the start of its reporting on. -/
def perform (task : Task) (s : Settings) (out err : Sink) (store : MemoryStore) :
    Ending MemoryStore :=
  (task.action s).perform s.mode out err store

/-- An invocation runs the task that is its command. -/
theorem perform_command (i : Invocation) (files : Files) (interrupt : Option Nat) (out err : Sink)
    (store : MemoryStore) :
    i.perform files interrupt out err store =
      (command i.command files).perform { mode := i.mode, patience := ⟨i.timeout, interrupt⟩ }
        out err store := rfl

section Parallel

variable {s t : Settings} (hdry : s.mode.dryRun = t.mode.dryRun) (hdiffer : s.differ = t.differ)
include hdry hdiffer

/-- Commands go apart once they report. -/
theorem parallel_run (c : Command) (files : Files) :
    Parallel (c.run files s : Action MemoryStore Unit) (c.run files t) := by
  cases c with
  | create account ns name tag stack store order =>
    -- Whether the tag is empty is up to the command
    simp only [Command.run]
    split
    · exact (lockstep_fail _).bind_parallel fun _ => (lockstep_ofExcept _).bind_parallel
        fun _ => parallel_create hdry _ ns _
    · exact (lockstep_ofExcept _).bind_parallel fun _ => parallel_create hdry _ ns _
  | patch type ns name request =>
    exact (lockstep_ofExcept _).bind_parallel fun changes =>
      (lockstep_request fun h => answersAlike_get h type ns name).bind_parallel fun observed =>
        parallel_patch hdry type ns hdiffer observed _
  | save account ns name request =>
    exact (lockstep_ofExcept _).bind_parallel fun changes =>
      parallel_save hdry _ ns hdiffer name _ _
  | delete type ns name => exact parallel_delete hdry type ns name
  | get type ns name => exact parallel_show type _ name _

/-- Tasks go apart once they report. -/
theorem parallel_action (task : Task) : Parallel (task.action s) (task.action t) := by
  cases task with
  | command c files => exact parallel_run hdry hdiffer c files
  | create type ns object => exact parallel_create hdry type ns object
  | patch type ns observed desired => exact parallel_patch hdry type ns hdiffer observed desired
  | save type ns name update make => exact parallel_save hdry type ns hdiffer name update make
  | delete type ns name => exact parallel_delete hdry type ns name
  | «show» type ns name describe => exact parallel_show type ns name describe

end Parallel

end Task

/-- Whether the format of a mode is none or a known one. -/
def Mode.IsSupported (m : Mode) : Prop := m.output ∈ [none, some "yaml", some "json"]

/-- A supported mode has a router. -/
theorem Mode.IsSupported.exists_router {m : Mode} (h : m.IsSupported) (registry : Registry)
    (out err : Sink) : ∃ router, Router.ofMode m registry out err = .ok router := by
  obtain ⟨dryRun, output, wait⟩ := m
  simp only [IsSupported, List.mem_cons, List.not_mem_nil, or_false] at h
  rcases h with rfl | rfl | rfl <;> exact ⟨_, rfl⟩

/-- How a task reports and waits, and what watches would report, has no influence on what is
stored: from the same store, the same requests are made, and a watch may come after them. -/
theorem Task.perform_agree (task : Task) {s t : Settings} (hdry : s.mode.dryRun = t.mode.dryRun)
    (hdiffer : s.differ = t.differ) (hs : s.mode.IsSupported) (ht : t.mode.IsSupported)
    {store store' : MemoryStore} (h : store.Alike store') (out err out' err' : Sink) :
    (task.perform s out err store).store.AlikeButWatch
      (task.perform t out' err' store').store := by
  obtain ⟨router, hrouter⟩ := hs.exists_router .standard out err
  obtain ⟨router', hrouter'⟩ := ht.exists_router .standard out' err'
  -- Both formats are known, so both tasks are run
  have hparallel := parallel_action hdry hdiffer task ⟨store, router, []⟩ ⟨store', router', []⟩ h
  simp only [perform, Action.perform, hrouter, hrouter']
  exact hparallel

/-- One run prints to where there is no room for it, and the other one waits until a failure. -/
theorem Task.perform_agree_patch :
    let stored : Json := .obj [("metadata", .obj [("name", .str "base")]),
      ("spec", .obj [("stack", .obj [("name", .str "tiny")]), ("tag", .str "r/base")])]
    let task : Task := .command (.patch .builder none "base" { stack := some "full" }) default
    let printing : Settings := { mode := { output := some "json" } }
    let waiting : Settings := { mode := { wait := true }, patience := ⟨.ofSeconds 5, some 700⟩ }
    let store : MemoryStore := { objects := [(.ofLocation .builder none "base", stored)] }
    let watched := { store with events := some [(50, .failure default), (100, .object .null)] }
    printing.mode.IsSupported ∧ waiting.mode.IsSupported ∧
      (task.perform printing { limit := some 3 } {} store).store.AlikeButWatch
        (task.perform waiting {} { limit := some 0 } watched).store := by
  intro stored task printing waiting store watched
  have hprinting : printing.mode.IsSupported := by simp [printing, Mode.IsSupported]
  have hwaiting : waiting.mode.IsSupported := by simp [waiting, Mode.IsSupported]
  -- Only what a watch would report is different
  have hstores : store.Alike watched := ⟨rfl, rfl, rfl⟩
  refine ⟨hprinting, hwaiting, ?_⟩
  exact task.perform_agree (s := printing) (t := waiting) rfl rfl hprinting hwaiting hstores _ _ _ _

end BuilderControl
