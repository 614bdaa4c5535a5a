import BuilderControl.Proofs.Foretelling
import BuilderControl.Proofs.Locality

/-!
# Invocations that name different entries

An invocation has to do with the entry of the store that its command names: what it does is up to
that entry alone, and it leaves the others as they are.  So two invocations that name different
entries do the same in either order, and any number of them in any order.

## Key results

- `Turn.perform_congr`: an invocation that meets its entry amid other objects
- `Turn.perform_local`: what an invocation has to do with, and what others do to it
- `Turn.objectsAfter_perm`, `Turn.alike_after`: any number of invocations in any order
-/

namespace BuilderControl

open MemoryStore

/-- Objects in key order, each of them under the name that it states. -/
structure Consistent (objects : Entries StoreKey Json) : Prop where
  sorted : Entries.Sorted objects
  named : ({ objects } : MemoryStore).IsNamed

/-- Two endings that nobody tells apart who does not look at the objects. -/
structure Ending.Alike (a b : Ending MemoryStore) : Prop where
  halt : a.halt = b.halt
  out : a.out = b.out
  err : a.err = b.err
  logs : a.logs = b.logs
  calls : a.store.calls = b.store.calls

/-- An invocation with everything that it meets, except for the objects of the store. -/
structure Turn where
  invocation : Invocation
  files : Files := default
  interrupt : Option Nat := none
  out : Sink := {}
  err : Sink := {}
  faults : List PlannedFault := []
  events : Option (List (Nat × WatchEvent)) := none

namespace Turn

/-- The entry of the store that is named. -/
def entry (t : Turn) : StoreKey := t.invocation.command.entry

/-- The store that is met. -/
def store (t : Turn) (objects : Entries StoreKey Json) : MemoryStore :=
  { objects, faults := t.faults, events := t.events }

def perform (t : Turn) (objects : Entries StoreKey Json) : Ending MemoryStore :=
  t.invocation.perform t.files t.interrupt t.out t.err (t.store objects)

/-! ## One turn -/

/-- A turn has to do with its entry only. -/
structure IsLocal (t : Turn) (objects : Entries StoreKey Json) : Prop where
  consistent : Consistent (t.perform objects).store.objects
  others : ∀ key, key ≠ t.entry →
    Entries.get? (t.perform objects).store.objects key = Entries.get? objects key
  calls : ∀ call ∈ (t.perform objects).store.calls, call.key = t.entry
  independent : ∀ others : Entries StoreKey Json, others.Sorted →
    Entries.get? others t.entry = Entries.get? objects t.entry →
    (t.perform others).Alike (t.perform objects) ∧
      Entries.get? (t.perform others).store.objects t.entry =
        Entries.get? (t.perform objects).store.objects t.entry

/-- Two turns go the same in either order, and leave the same objects. -/
structure Commutes (t u : Turn) (objects : Entries StoreKey Json) : Prop where
  first : (t.perform (u.perform objects).store.objects).Alike (t.perform objects)
  second : (u.perform (t.perform objects).store.objects).Alike (u.perform objects)
  objects : (u.perform (t.perform objects).store.objects).store.objects =
    (t.perform (u.perform objects).store.objects).store.objects

/-- A turn is the run of an action that has to do with the entry. -/
theorem exists_run (t : Turn) : ∃ (x : Action MemoryStore Unit) (router : Router), ∀ objects,
    t.perform objects = .ofRun (x.run { store := t.store objects, router }) ∧
      ((t.store objects).IsNamedAt t.entry →
        x.LocalAt t.entry { store := t.store objects, router }) := by
  cases hrouter : Router.ofMode t.invocation.mode .standard t.out t.err with
  | error refused =>
    -- Nothing is run, which is to fail right away
    refine ⟨Action.ofExcept (.error (.invalid refused)), ⟨false, none, .standard, t.out, t.err⟩,
      fun objects => ⟨?_, fun hs => Action.localAt_ofExcept hs _⟩⟩
    rw [Action.run_ofExcept]
    simp only [perform, Invocation.perform, Action.perform, hrouter]
    rfl
  | ok router =>
    exact ⟨_, router, fun objects => ⟨Invocation.perform_eq hrouter t.files t.interrupt _,
      fun hs => t.invocation.command.localAt_run t.files rfl hs⟩⟩

section Consistent

variable (t : Turn) {objects : Entries StoreKey Json} (h : Consistent objects)
include h

/-- In consistent objects, every entry has its name. -/
theorem isNamedAt_store (key : StoreKey) : (t.store objects).IsNamedAt key where
  sorted := h.sorted
  bears document hget := ⟨(h.named key document hget).1, (h.named key document hget).2⟩

/-- If the entry is met amid other objects, the turn is the same, and leaves it amid them. -/
theorem perform_congr {others : Entries StoreKey Json} (hothers : others.Sorted)
    (hentry : Entries.get? others t.entry = Entries.get? objects t.entry) :
    t.perform others = { t.perform objects with
      store := (t.perform objects).store.amid others t.entry } := by
  obtain ⟨x, router, hrun⟩ := t.exists_run
  -- The other objects are those around the entry as it is met
  have hstore : t.store others = (t.store objects).amid others t.entry := by
    simp only [store, amid, ← hentry, hothers.assign_get?]
  have hamid := ((hrun objects).2 (t.isNamedAt_store h t.entry)).amid others hothers
  rw [(hrun others).1, (hrun objects).1, hstore]
  exact congrArg Ending.ofRun hamid

/-- All that a turn does to the objects is to set its entry. -/
theorem objects_perform : (t.perform objects).store.objects =
    objects.assign t.entry (Entries.get? (t.perform objects).store.objects t.entry) :=
  congrArg (·.store.objects) (t.perform_congr h h.sorted rfl)

/-- A turn leaves other entries as they are. -/
theorem get?_perform_of_ne {key : StoreKey} (hne : key ≠ t.entry) :
    Entries.get? (t.perform objects).store.objects key = Entries.get? objects key := by
  rw [t.objects_perform h, h.sorted.get?_assign, if_neg hne]

/-- All that a turn requests is about its entry. -/
theorem key_of_mem_calls : ∀ call ∈ (t.perform objects).store.calls, call.key = t.entry := by
  obtain ⟨x, router, hrun⟩ := t.exists_run
  obtain ⟨made, hmade, hkeys⟩ := ((hrun objects).2 (t.isNamedAt_store h t.entry)).calls
  -- Nothing is recorded before the turn
  have hcalls : (t.perform objects).store.calls = made := by
    rw [(hrun objects).1]
    exact hmade
  rw [hcalls]
  exact hkeys

/-- Objects stay under the names that they state, the one that is set included. -/
theorem consistent_perform : Consistent (t.perform objects).store.objects := by
  obtain ⟨x, router, hrun⟩ := t.exists_run
  have hnamed : (t.perform objects).store.IsNamedAt t.entry := by
    rw [(hrun objects).1]
    exact ((hrun objects).2 (t.isNamedAt_store h t.entry)).named
  refine ⟨t.objects_perform h ▸ h.sorted.assign t.entry _, fun key document hget => ?_⟩
  by_cases hkey : key = t.entry
  · -- What is patched is found by the name in the object, which is the name of the entry
    subst hkey
    have hbears := hnamed.bears document hget
    exact ⟨hbears.wellFormed, hbears.named⟩
  · exact h.named key document ((t.get?_perform_of_ne h hkey).symm.trans hget)

/-- A turn has to do with its entry only. -/
theorem isLocal : t.IsLocal objects where
  consistent := t.consistent_perform h
  others _ := t.get?_perform_of_ne h
  calls := t.key_of_mem_calls h
  independent others hothers hentry := by
    rw [t.perform_congr h hothers hentry]
    exact ⟨⟨rfl, rfl, rfl, rfl, rfl⟩, get?_amid hothers t.entry _⟩

/-- A turn goes the same after another one that names a different entry. -/
theorem alike_perform {u : Turn} (hne : t.entry ≠ u.entry) :
    (t.perform (u.perform objects).store.objects).Alike (t.perform objects) :=
  ((t.isLocal h).independent _ (u.consistent_perform h).sorted (u.get?_perform_of_ne h hne)).1

/-- Two turns set their entries in either order. -/
theorem objects_perform_perform {u : Turn} (hne : t.entry ≠ u.entry) :
    (t.perform (u.perform objects).store.objects).store.objects =
      (objects.assign u.entry (Entries.get? (u.perform objects).store.objects u.entry)).assign
        t.entry (Entries.get? (t.perform objects).store.objects t.entry) := by
  rw [t.perform_congr h (u.consistent_perform h).sorted (u.get?_perform_of_ne h hne),
    ← u.objects_perform h]
  rfl

/-- Turns that name different entries go the same in either order, and leave the same objects. -/
theorem commutes {u : Turn} (hne : t.entry ≠ u.entry) : t.Commutes u objects where
  first := t.alike_perform h hne
  second := u.alike_perform h hne.symm
  objects := by
    rw [t.objects_perform_perform h hne, u.objects_perform_perform h hne.symm,
      h.sorted.assign_comm hne]

/-- A turn keeps the store consistent and has to do with the entry that it names only, so turns that
name different entries go the same in either order. -/
theorem perform_local : t.IsLocal objects ∧ ∀ u : Turn, u.entry ≠ t.entry → t.Commutes u objects :=
  ⟨t.isLocal h, fun _ hne => t.commutes h hne.symm⟩

end Consistent

/-- A patch that is waited for, and a deletion that cannot be told, of objects of one name. -/
theorem perform_local_same_name :
    let builder : Json := .obj [("metadata", .obj [("name", .str "base")]),
      ("spec", .obj [("stack", .obj [("name", .str "tiny")]), ("tag", .str "r/base")])]
    let clusterBuilder : Json := .obj [("metadata", .obj [("name", .str "base")])]
    let objects : Entries StoreKey Json := [(.ofLocation .builder none "base", builder),
      (.ofLocation .clusterBuilder none "base", clusterBuilder)]
    let t : Turn :=
      { invocation := ⟨.patch .builder none "base" { stack := some "full" }, { wait := true },
          .ofSeconds 600⟩ }
    let u : Turn :=
      { invocation := ⟨.delete .clusterBuilder none "base", {}, .ofSeconds 600⟩
        out := { limit := some 4 } }
    let left := (t.perform (u.perform objects).store.objects).store.objects
    Consistent objects ∧ u.entry ≠ t.entry ∧ t.IsLocal objects ∧ t.Commutes u objects ∧
      (t.perform objects).store.calls.length = 3 ∧ (u.perform objects).halt ≠ none ∧
      left.keys = [t.entry] ∧ (left.get? t.entry ≠ some builder) := by
  intro builder clusterBuilder objects t u left
  -- Both objects state their name, and the types keep them under different keys
  have hnamed : ∀ e ∈ objects,
      e.2.WellFormed ∧ e.2.at? ["metadata", "name"] = some (.str e.1.name) := by decide +kernel
  have hconsistent : Consistent objects :=
    ⟨by unfold Entries.Sorted; decide +kernel,
      fun _ _ hget => hnamed _ (Entries.mem_of_get? hget)⟩
  have hne : u.entry ≠ t.entry := by decide
  obtain ⟨hlocal, hcommutes⟩ := t.perform_local hconsistent
  exact ⟨hconsistent, hne, hlocal, hcommutes u hne, by decide +kernel, by decide +kernel,
    by decide +kernel, by decide +kernel⟩

/-! ## Turns one after the other -/

/-- The objects that some turns leave. -/
def objectsAfter (turns : List Turn) (objects : Entries StoreKey Json) : Entries StoreKey Json :=
  turns.foldl (fun objects t => (t.perform objects).store.objects) objects

section Runs

variable {objects : Entries StoreKey Json} (h : Consistent objects) {turns : List Turn}
include h

/-- Any number of turns keeps the objects consistent. -/
theorem consistent_objectsAfter : Consistent (objectsAfter turns objects) := by
  -- On the turns, with the objects that the first one leaves
  induction turns generalizing objects with
  | nil => exact h
  | cons t turns ih => exact ih (t.consistent_perform h)

/-- Entries that no turn names stay as they are. -/
theorem get?_objectsAfter {key : StoreKey} (hne : ∀ t ∈ turns, key ≠ t.entry) :
    Entries.get? (objectsAfter turns objects) key = Entries.get? objects key := by
  induction turns generalizing objects with
  | nil => rfl
  | cons t turns ih =>
    obtain ⟨hhead, htail⟩ := List.forall_mem_cons.1 hne
    exact (ih (t.consistent_perform h) htail).trans (t.get?_perform_of_ne h hhead)

/-- A turn goes the same after any number of turns that do not name its entry. -/
theorem alike_after {t : Turn} (hne : ∀ u ∈ turns, t.entry ≠ u.entry) :
    (t.perform (objectsAfter turns objects)).Alike (t.perform objects) :=
  ((t.isLocal h).independent _ (consistent_objectsAfter h).sorted (get?_objectsAfter h hne)).1

/-- Turns that name different entries leave the same objects in any order. -/
theorem objectsAfter_perm {others : List Turn} (hperm : turns.Perm others)
    (hne : turns.Pairwise fun t u => t.entry ≠ u.entry) :
    objectsAfter turns objects = objectsAfter others objects := by
  -- A permutation is made of swaps of neighbours, each of which goes the same in either order
  induction hperm generalizing objects with
  | nil => rfl
  | cons t _ ih => exact ih (t.consistent_perform h) (List.pairwise_cons.1 hne).2
  | swap t u turns =>
    -- The rest starts from the same objects
    have htu : u.entry ≠ t.entry := (List.pairwise_cons.1 hne).1 t List.mem_cons_self
    exact congrArg (objectsAfter turns) (t.commutes h htu.symm).objects.symm
  | trans hperm _ ih ih' =>
    exact (ih h hne).trans (ih' h (hperm.pairwise hne fun hne => Ne.symm hne))

end Runs

end Turn

end BuilderControl
