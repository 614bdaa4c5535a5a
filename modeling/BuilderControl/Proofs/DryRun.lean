import BuilderControl.Proofs.Courses
import BuilderControl.Proofs.Foretelling

/-!
# Dry runs

A dry run makes no request but the one that gets an object, and prints what the run it stands for
would print: its own version of the object instead of the one that the store would have answered.

## Key results

- `Command.along_run_of_dryRun`: dry runs change nothing
- `Invocation.perform_dryRun`: dry runs change nothing and tell what would be printed
-/

namespace BuilderControl

open MemoryStore

/-! ## Dry runs change nothing -/

/-- Nothing is changed, and at most one object is got. -/
structure MemoryStore.Gets (s s' : MemoryStore) : Prop where
  objects : s'.objects = s.objects
  calls : s'.calls = s.calls ∨ ∃ type ns name, s'.calls = s.calls ++ [⟨.get, type, ns, name⟩]

/-- Making no request changes nothing. -/
theorem MemoryStore.Gets.refl (s : MemoryStore) : s.Gets s := ⟨rfl, Or.inl rfl⟩

/-- A `get` changes nothing. -/
theorem MemoryStore.gets_get (type : ResourceType) (ns : Option String) (name : String)
    (s : MemoryStore) : s.Gets (Store.get type ns name s).store :=
  ⟨objects_get type ns name s, Or.inr ⟨type, ns, name, calls_get type ns name s⟩⟩

/-- A course of a dry run leaves the store alone. -/
theorem Course.Leaves.eq_of_dryRun {s : Settings} (hdry : s.mode.dryRun = true)
    {course : Course} {t t' : MemoryStore} (h : course.Leaves s t t') : t' = t := by
  cases course with
  | fail | keep | print => exact h
  | submit x =>
    cases h with
    | kept => rfl
    | sent hreal => cases hdry.symm.trans hreal
    -- Only what is submitted is waited for
    | watched hwait hreply => cases hdry.symm.trans (Mode.dryRun_of_shouldWait hwait)
  | delete type ns name =>
    simp only [Leaves, hdry, if_true] at h
    exact h

namespace Command

/-- Before it takes its course, a command gets an object at most. -/
theorem Takes.gets {differ : Differ} {files : Files} {s t : MemoryStore} {c : Command}
    {course : Course} (h : c.Takes differ files s course t) : s.Gets t := by
  cases h with
  | reject | create | delete => exact Gets.refl s
  | unread | keep | patch | incomplete | new | missing | print => exact gets_get _ _ _ s

/-- Dry runs change nothing. -/
theorem along_run_of_dryRun {s : Settings} (hdry : s.mode.dryRun = true) (c : Command)
    (files : Files) : Action.Along Gets (c.run files s) := by
  intro w
  obtain ⟨course, u, htakes, -, hrun⟩ := c.exists_course files s w
  have hleaves : course.Leaves s u.store ((course.action s).run u).2.store :=
    course.leaves_action s u
  -- All that happens is what happens before the course is taken
  rw [hrun, hleaves.eq_of_dryRun hdry]
  exact htakes.gets

end Command

/-! ## Dry runs of invocations -/

namespace Invocation

/-- The dry run of an invocation. -/
def dry (i : Invocation) : Invocation := { i with mode := { i.mode with dryRun := true } }

/-- A dry run changes nothing and gets one object at most.  If the invocation itself succeeds, where
it does not wait and there is room for all that it prints, its dry run succeeds too, and foretells
what is printed. -/
theorem perform_dryRun {i : Invocation} (hdry : i.mode.dryRun = false) (hwrites : i.command.Writes)
    {store : MemoryStore} (hnamed : store.IsNamed) (files : Files) (interrupt : Option Nat)
    (out err : Sink) :
    store.Gets (i.dry.perform files interrupt out err store).store ∧
      (i.mode.shouldWait = false → out.limit = none →
        (i.perform files interrupt out err store).halt = none →
        (i.dry.perform files interrupt out err store).halt = none ∧
        ∃ format, i.mode.output.mapM Format.ofName = .ok format ∧
          Foretold format i.command.printsObject out
            (i.perform files interrupt out err store).out
            (i.dry.perform files interrupt out err store).out) := by
  cases hformat : i.mode.output.mapM Format.ofName with
  | error e =>
    -- Neither gets as far as its command
    have hrefused : Router.ofMode i.dry.mode .standard out err = .error e :=
      Router.ofMode_eq_error (m := i.dry.mode) hformat .standard out err
    rw [perform_of_refused (Router.ofMode_eq_error hformat .standard out err),
      perform_of_refused hrefused]
    exact ⟨Gets.refl store, fun _ _ hhalt => by cases hhalt⟩
  | ok format =>
    let s : Settings := { mode := i.mode, patience := ⟨i.timeout, interrupt⟩ }
    -- The routers write to the same places, and only one of them adds its remark
    rw [perform_eq (Router.ofMode_eq_ok_iff.2 ⟨format, hformat, rfl⟩),
      perform_eq (i := i.dry) (Router.ofMode_eq_ok_iff.2 ⟨format, hformat, rfl⟩)]
    let w : World MemoryStore := { store, router := ⟨i.mode.dryRun, format, .standard, out, err⟩ }
    let v : World MemoryStore := { store, router := ⟨true, format, .standard, out, err⟩ }
    have halong := i.command.along_run_of_dryRun (s := s.dry) rfl files v
    refine ⟨halong, fun hwait hroom hhalt => ?_⟩
    have hrun : ((i.command.run files s).run w).1 = .ok () := Ending.halt_ofRun_eq_none.1 hhalt
    have hpaired : w.router.Paired v.router := ⟨rfl, hdry, rfl, hroom⟩
    obtain ⟨v', hv', hforetold⟩ := Command.foretells_run (s := s) hdry hwait rfl hwrites files
      hpaired rfl hnamed _ (Prod.ext hrun rfl)
    have hdryRun : Ending.ofRun ((i.dry.command.run files s.dry).run v) =
        .ofRun (.ok (), v') := congrArg Ending.ofRun hv'
    exact ⟨congrArg Ending.halt hdryRun, format, rfl, congrArg Ending.out hdryRun ▸ hforetold⟩

/-- A patch that changes the stack succeeds, and so does its dry run, which prints the builder as it
was changed but without the generation that the store counts. -/
theorem perform_dryRun_patch :
    let stored : Json := .obj [("metadata", .obj [("name", .str "b")]),
      ("spec", .obj [("stack", .obj [("name", .str "tiny")]), ("tag", .str "t")])]
    let patch (output : Option String) : Invocation :=
      ⟨.patch .builder none "b" { stack := some "s" }, { output }, .ofSeconds 600⟩
    let store : MemoryStore := { objects := [(.ofLocation .builder none "b", stored)] }
    let real (output : Option String) := (patch output).perform default none {} {} store
    let dry (output : Option String) := (patch output).dry.perform default none {} {} store
    store.IsNamed ∧ (real none).halt = none ∧ store.Gets (dry none).store ∧
      (dry none).halt = none ∧ Foretold none true {} (real none).out (dry none).out ∧
    (real (some "yaml")).halt = none ∧ (dry (some "yaml")).halt = none ∧
      Foretold (some .yaml) true {} (real (some "yaml")).out (dry (some "yaml")).out ∧
      (real (some "yaml")).out = (({} : Sink).writeText ("---\n" ++
        "apiVersion: build.pivotal.io/v1alpha1\nkind: Builder\nmetadata:\n  generation: 1\n" ++
        "  name: b\nspec:\n  stack:\n    name: s\n  store: \x7b\x7d\n  tag: t\n")).2 ∧
      (dry (some "yaml")).out = (({} : Sink).writeText ("---\n" ++
        "apiVersion: build.pivotal.io/v1alpha1\nkind: Builder\nmetadata:\n" ++
        "  name: b\nspec:\n  stack:\n    name: s\n  store: \x7b\x7d\n  tag: t\n")).2 := by
  intro stored patch store real dry
  -- The only object is kept under its own name
  have hnamed : store.IsNamed := by
    intro key document hget
    simp only [store, Entries.get?_cons] at hget
    split at hget
    · rename_i hkey
      cases hkey
      cases hget
      exact ⟨by decide, rfl⟩
    · cases hget
  have hreal : (real none).halt = none := by decide +kernel
  have hprinted : (real (some "yaml")).halt = none := by decide +kernel
  have hwrites : ∀ output, (patch output).command.Writes := fun _ => .patch (Or.inl rfl) none "b" _
  obtain ⟨hgets, hsucceeds⟩ := perform_dryRun (i := patch none) rfl (hwrites _) hnamed default none {} {}
  obtain ⟨hdry, format, hformat, hforetold⟩ := hsucceeds rfl rfl hreal
  cases hformat
  obtain ⟨-, hprints⟩ :=
    perform_dryRun (i := patch (some "yaml")) rfl (hwrites _) hnamed default none {} {}
  obtain ⟨hdry', format', hformat', hforetold'⟩ := hprints rfl rfl hprinted
  cases hformat'
  exact ⟨hnamed, hreal, hgets, hdry, hforetold, hprinted, hdry', hforetold', by decide +kernel,
    by decide +kernel⟩

end Invocation

end BuilderControl
