import Mathlib.Data.List.Nodup
import BuilderControl.Proofs.Courses
import BuilderControl.Proofs.Foretelling

/-!
# Updates that are repeated

Whether an update has patched a builder or made it, what is stored then has all that was asked for.
So when the update is repeated, there is nothing left to change, and it changes nothing.

## Key results

- `Builder.Changes.pending_updated`, `Builder.Changes.pending_initial_new`: nothing is left to change
- `Command.isMet_of_run_ok`: an update that succeeds has met what was asked for
- `Invocation.perform_again`: what repeating an update does
-/

namespace BuilderControl

open MemoryStore Json

namespace Builder

/-! ## Nothing is left to change -/

namespace Changes

/-- Nothing is left to change if everything is where it is asked for. -/
theorem pending_eq_nil {c : Changes} {observed : Resource}
    (h : ∀ p ∈ c.places,
      (observed.document.at? ("spec" :: p.1 :: p.2.1)).map canon = some p.2.2.canon) :
    c.pending observed = [] := by
  refine List.filter_eq_nil_iff.2 fun p hp => ?_
  rw [holds_spec_iff.2 (h p hp)]
  exact Bool.false_ne_true

/-- Nothing is left to change after what was left has been set. -/
theorem pending_updated {c : Changes} (hc : c.places.Settable) (type : Option ResourceType)
    (observed : Resource) :
    c.pending ⟨type, updated observed.document (c.pending observed)⟩ = [] := by
  refine pending_eq_nil fun p hp => ?_
  have hdistinct := (hc.sublist (c.pending_sublist observed)).distinct
  by_cases hpending : p ∈ c.pending observed
  · -- What was left to change has been set
    rw [at?_updated_of_mem observed.document hdistinct hpending]
    rfl
  · -- What is observed already is elsewhere than what is set
    have hother : ∀ q ∈ c.pending observed, q.1 ≠ p.1 := by
      intro q hq hkey
      have hqp := List.inj_on_of_nodup_map hc.distinct
        ((c.pending_sublist observed).subset hq) hp hkey
      exact hpending (hqp ▸ hq)
    have hapart : ∀ q ∈ c.pending observed, ¬ ("spec" :: q.1 :: q.2.1) <+: "spec" :: p.1 :: p.2.1 ∧
        ¬ ("spec" :: p.1 :: p.2.1) <+: "spec" :: q.1 :: q.2.1 := by
      intro q hq
      have hne := hother q hq
      simp [List.cons_prefix_cons, hne, hne.symm]
    rw [at?_updated observed.document hapart (by simp [List.cons_prefix_cons])]
    exact observed_of_not_mem_pending hp hpending

/-- What is asked for of a new builder is its content. -/
theorem mem_places_of_content {c : Changes} {content : Content} (h : c.content = .ok content)
    {p : String × List String × Json} (hp : p ∈ c.places) : p ∈ content.changes.places := by
  obtain ⟨_ | tag, stack, store, _ | order⟩ := c
  · cases h
  · cases h
  · cases h
  · cases h
    cases stack <;> cases store <;> simp [places, Content.changes] at hp ⊢ <;> grind

/-- Nothing is left to change in a builder that was made as it was asked for. -/
theorem pending_initial_new {c : Changes} (hn : c.IsNormal) {content : Content}
    (hcontent : c.content = .ok content) (account : Account) (ns : Option String) (name : String)
    (type : Option ResourceType) :
    c.pending ⟨type, initial account.type (Builder.new account ns name content)⟩ = [] := by
  refine pending_eq_nil fun p hp => ?_
  rw [at?_initial_new account ns name (hn _ (order_of_content hcontent))
    (mem_places_of_content hcontent hp)]
  rfl

end Changes

/-- A new builder is called as it was asked to be, in whatever namespace. -/
theorem name_new (account : Account) (ns : Option String) (name : String) (content : Content) :
    (Builder.new account ns name content).name = name := by
  cases ns <;> rfl

end Builder

/-- Whether there is anything to patch is whether anything is left to change. -/
theorem Builder.isEmpty_diff_iff {type : ResourceType}
    (htype : type = .builder ∨ type = .clusterBuilder) {stored : Json} (hw : stored.WellFormed)
    {observed : Resource} (ho : Resource.ofJson (some type) stored = .ok observed) {c : Changes}
    (hc : c.places.Settable) :
    (Differ.standard.diff observed.document (c.apply observed).document).isEmpty = true ↔
      c.pending observed = [] := by
  rw [diff_apply htype hw ho hc]
  split
  · simp [*, MergePatch.isEmpty]
  · simp [*, MergePatch.isEmpty, specPatch]

/-! ## Updates that are met -/

/-- What is stored after a new object was accepted. -/
theorem MemoryStore.objects_of_create_ok {type : ResourceType} {ns : Option String}
    {object r : Resource} {s : MemoryStore}
    (h : (Store.create type ns object s).reply = .done (.ok r)) :
    (Store.create type ns object s).store.objects =
      Entries.insert s.objects (.ofLocation type ns object.name) (initial type object) := by
  obtain ⟨t, hact, hstore⟩ := of_answer_ok h
  simp only at hact
  split at hact
  · cases hact
  · injection hact with hact
    exact (congrArg MemoryStore.objects hstore).trans
      (congrArg MemoryStore.objects (Prod.mk.inj hact).2).symm

namespace Command

open BuilderControl.Action Engine Builder

/-- The builder is stored, and has all that is asked for. -/
def ChangeRequest.IsMet (request : ChangeRequest) (files : Files) (type : ResourceType)
    (ns : Option String) (name : String) (objects : Entries StoreKey Json) : Prop :=
  ∃ changes stored observed, request.read files = .ok changes ∧
    Entries.get? objects (.ofLocation type ns name) = some stored ∧ stored.WellFormed ∧
    Resource.ofJson (some type) stored = .ok observed ∧ changes.pending observed = []

variable {type : ResourceType} (htype : type = .builder ∨ type = .clusterBuilder)
  {ns : Option String} {name : String} {request : ChangeRequest} {files : Files} {s : Settings}
  (hdiffer : s.differ = .standard)
include htype hdiffer

section Courses

variable {changes : Builder.Changes} (hread : request.read files = .ok changes)
  {store : MemoryStore} (hnamed : store.IsNamed) {u w' : World MemoryStore}
include hread hnamed

/-- What is kept has all that is asked for. -/
private theorem isMet_of_keep {observed : Resource}
    (hreply : (Store.get type ns name store).reply = .done (.ok observed))
    (hdiff : (s.differ.diff observed.document (changes.apply observed).document).isEmpty = true)
    (hu : u.store = (Store.get type ns name store).store)
    (hok : ((Course.keep observed).action s).run u = (.ok (), w')) :
    request.IsMet files type ns name w'.store.objects := by
  obtain ⟨stored, hget, ho, hobjects⟩ := of_get_ok hreply
  obtain ⟨hw, -⟩ := hnamed _ _ hget
  rw [hdiffer, isEmpty_diff_iff htype hw ho (settable_of_read hread)] at hdiff
  -- Nothing was changed, so the object is still stored
  have hkept : w'.store = u.store := by
    have hleaves := (Course.keep observed).leaves_action s u
    rwa [hok] at hleaves
  refine ⟨changes, stored, observed, hread, ?_, hw, ho, hdiff⟩
  rw [hkept, hu, hobjects]
  exact hget

/-- What was patched has all that is asked for. -/
private theorem isMet_of_patch (hdry : s.mode.dryRun = false) {observed : Resource}
    (hreply : (Store.get type ns name store).reply = .done (.ok observed))
    (hdiff : (s.differ.diff observed.document (changes.apply observed).document).isEmpty = false)
    (hu : u.store = (Store.get type ns name store).store)
    (hok : (Engine.submit s (.patch type ns observed (changes.apply observed)
      (s.differ.diff observed.document (changes.apply observed).document))).run u = (.ok (), w')) :
    request.IsMet files type ns name w'.store.objects := by
  obtain ⟨stored, hget, ho, hobjects⟩ := of_get_ok hreply
  obtain ⟨hw, hname⟩ := hnamed _ _ hget
  have hc := settable_of_read hread
  have hsublist := changes.pending_sublist observed
  have hne : changes.pending observed ≠ [] := by
    rw [hdiffer, ← Bool.not_eq_true, isEmpty_diff_iff htype hw ho hc] at hdiff
    exact hdiff
  obtain ⟨⟨patched, hpatched⟩, hafter⟩ := of_submit_ok hdry hok
  -- What was patched is the object that was got
  have hsame : observed.name = name := Resource.name_eq_of_ofJson hw ho hname
  simp only [Submission.send, hdiffer, diff_apply htype hw ho hc, if_neg hne, hsame]
    at hpatched hafter
  have hgot : Entries.get? u.store.objects (.ofLocation type ns name) = some stored := by
    rw [hu, hobjects]
    exact hget
  -- The store answers with what it has read of the patched object, generation and all
  have hanswer := of_patch_ok hgot hpatched
  rw [patched_specPatch htype hw ho (hc.sublist hsublist) hne] at hanswer
  have hg := isGeneration_of_ofJson_updated htype hw ho hc hsublist hne hanswer
  refine ⟨changes, updated stored (changes.pending observed), _, hread, ?_,
    wellFormed_updated hw (hc.sublist hsublist).wellFormed,
    ofJson_updated htype hw ho hc (Changes.isNormal_of_read hread) hsublist hg,
    Changes.pending_updated hc _ observed⟩
  rw [hafter, patch_store _ (fault_eq_none_of_patch hpatched) hgot,
    ← patched_specPatch htype hw ho (hc.sublist hsublist) hne]
  exact (Entries.get?_insert _ _ _ _).trans (if_pos rfl)

omit htype hdiffer hnamed in
/-- What was made has all that is asked for. -/
private theorem isMet_of_new (hdry : s.mode.dryRun = false) (account : Builder.Account)
    {content : Builder.Content} (hcontent : changes.content = .ok content)
    (hok : (Engine.submit s (.create account.type ns (Builder.new account ns name content))).run u =
      (.ok (), w')) :
    request.IsMet files account.type ns name w'.store.objects := by
  have hn := Changes.isNormal_of_read hread
  have horder := hn _ (Changes.order_of_content hcontent)
  obtain ⟨⟨created, hcreated⟩, hafter⟩ := of_submit_ok hdry hok
  have hobjects := objects_of_create_ok hcreated
  rw [name_new] at hobjects
  refine ⟨changes, _, _, hread, ?_, ?_, ofJson_initial_new account ns name horder,
    Changes.pending_initial_new hn hcontent account ns name _⟩
  · refine (congrArg (Entries.get? · _) (hafter.trans hobjects)).trans ?_
    rw [Entries.get?_insert, if_pos rfl]
  · exact wellFormed_withGeneration (wellFormed_identified account ns name horder) 1

end Courses

variable {c : Command} (hupdates : c.Updates type ns name request)
include hupdates

/-- An update that succeeds has met what was asked for. -/
theorem isMet_of_run_ok (hdry : s.mode.dryRun = false) {w w' : World MemoryStore}
    (hnamed : w.store.IsNamed) (hok : (c.run files s).run w = (.ok (), w')) :
    request.IsMet files type ns name w'.store.objects := by
  obtain ⟨course, u, htakes, -, hrun⟩ := c.exists_course files s w
  rw [hrun] at hok
  generalize hu : u.store = t at htakes
  cases htakes with
  | reject | unread | incomplete => cases hok
  | create | delete | missing | print => cases hupdates
  | keep hupdates' hread hreply hdiff =>
    obtain ⟨rfl, rfl, rfl, rfl⟩ := hupdates.unique hupdates'
    exact isMet_of_keep htype hdiffer hread hnamed hreply hdiff hu hok
  | patch hupdates' hread hreply hdiff =>
    obtain ⟨rfl, rfl, rfl, rfl⟩ := hupdates.unique hupdates'
    exact isMet_of_patch htype hdiffer hread hnamed hdry hreply hdiff hu hok
  | new account ns' name' hread hreply he hcontent =>
    obtain ⟨rfl, rfl, rfl, rfl⟩ := hupdates.unique (.save account rfl)
    exact isMet_of_new hread hdry account hcontent hok

/-- An update that is met already changes nothing, and says so where there is room for it. -/
theorem run_of_isMet {w : World MemoryStore} (hfaults : w.store.faults = [])
    (hmet : request.IsMet files type ns name w.store.objects) :
    ((c.run files s).run w).2.store =
        { w.store with calls := w.store.calls ++ [⟨.get, type, ns, name⟩] } ∧
      (w.router.registry = .standard → w.router.out.limit = none →
        ∃ document : Json, ∃ u : World MemoryStore, (c.run files s).run w = (.ok (), u) ∧
          u.router = { w.router with out := w.router.told document Course.keepText }) := by
  obtain ⟨changes, stored, observed, hread, hget, hw, ho, hpending⟩ := hmet
  have hc := settable_of_read hread
  have hempty : (s.differ.diff observed.document (changes.apply observed).document).isEmpty =
      true := by
    rw [hdiffer, isEmpty_diff_iff htype hw ho hc]
    exact hpending
  obtain ⟨v, hv, hvrouter, hrun⟩ := run_update hupdates hread hfaults hget ho s
  obtain ⟨u, hu, hurouter, hpatch⟩ :=
    run_patch_of_isEmpty type ns observed (changes.apply observed) hempty v
  rw [hrun, hpatch, ← hv, ← hu]
  refine ⟨quiet_tell observed Course.keepText u, fun hregistry hroom => ?_⟩
  have hrouter := hurouter.trans hvrouter
  rw [← hrouter] at hregistry hroom ⊢
  -- What was read has a type, so it can be printed
  have hwo := Resource.wellFormed_ofJson hw ho
  obtain ⟨document, _, hprinted, -⟩ := @exists_printed type _ _ hwo hwo
    (sameButGeneration_of_canon_eq hwo hwo rfl) rfl rfl
  have hobserved : observed = ⟨some type, observed.document⟩ := by
    rw [← (Resource.ofJson_eq_ok_iff.1 ho).1]
  rw [← hobserved, ← hregistry] at hprinted
  exact ⟨document, _, run_tell hroom hprinted _, rfl⟩

end Command

/-! ## Invocations -/

namespace Invocation

/-- An update that has succeeded can be repeated: the builder is got, nothing is changed, and that
is all that is said. -/
theorem perform_again {i : Invocation} {type : ResourceType} {ns : Option String} {name : String}
    {request : Command.ChangeRequest} (hupdates : i.command.Updates type ns name request)
    (htype : type = .builder ∨ type = .clusterBuilder) (hdry : i.mode.dryRun = false)
    {store : MemoryStore} (hnamed : store.IsNamed) {files : Files} {interrupt : Option Nat}
    {out err : Sink} (hhalt : (i.perform files interrupt out err store).halt = none)
    {again : MemoryStore}
    (hobjects : again.objects = (i.perform files interrupt out err store).store.objects)
    (hfaults : again.faults = []) (interrupt' : Option Nat) (out' err' : Sink) :
    (i.perform files interrupt' out' err' again).store =
        { again with calls := again.calls ++ [⟨.get, type, ns, name⟩] } ∧
      (out'.limit = none →
        (i.perform files interrupt' out' err' again).halt = none ∧
        (i.perform files interrupt' out' err' again).err = err' ∧
        (i.mode.output = none → (i.perform files interrupt' out' err' again).out =
          (out'.writeText "nothing to patch\n").2)) := by
  obtain ⟨format, hformat⟩ := exists_format hhalt
  let s : Settings := { mode := i.mode, patience := ⟨i.timeout, interrupt⟩ }
  let s' : Settings := { mode := i.mode, patience := ⟨i.timeout, interrupt'⟩ }
  -- The first run has met what was asked for
  have hmet : request.IsMet files type ns name again.objects := by
    rw [perform_eq (Router.ofMode_eq_ok_iff.2 ⟨format, hformat, rfl⟩)] at hhalt hobjects
    rw [hobjects]
    refine Command.isMet_of_run_ok (s := s) htype rfl hupdates hdry
      (w := { store, router := ⟨i.mode.dryRun, format, .standard, out, err⟩ }) hnamed ?_
    exact Prod.ext (Ending.halt_ofRun_eq_none.1 hhalt) rfl
  obtain ⟨hstore, hsays⟩ := Command.run_of_isMet (s := s') htype rfl hupdates
    (w := { store := again, router := ⟨i.mode.dryRun, format, .standard, out', err'⟩ }) hfaults hmet
  rw [perform_eq (Router.ofMode_eq_ok_iff.2 ⟨format, hformat, rfl⟩)]
  refine ⟨hstore, fun hroom => ?_⟩
  obtain ⟨document, u, hrun, hrouter⟩ := hsays rfl hroom
  rw [hrun]
  refine ⟨rfl, ?_, fun houtput => ?_⟩
  · show u.router.err = err'
    rw [hrouter]
  · rw [houtput] at hformat
    cases hformat
    show u.router.out = _
    rw [hrouter, hdry]
    rfl

/-- A builder that was given another stack has it, when it is given it again. -/
theorem perform_again_patch :
    let stored : Json := .obj [("metadata", .obj [("name", .str "base")]),
      ("spec", .obj [("stack", .obj [("name", .str "tiny")]), ("tag", .str "r/base")])]
    let i : Invocation :=
      ⟨.patch .builder none "base" { stack := some "full" }, {}, .ofSeconds 600⟩
    let store : MemoryStore := { objects := [(.ofLocation .builder none "base", stored)] }
    let first := i.perform default none {} {} store
    let second := i.perform default none {} {} first.store
    store.IsNamed ∧ first.halt = none ∧ first.store.faults = [] ∧ second.halt = none ∧
      second.store.objects = first.store.objects ∧
      second.out = (({} : Sink).writeText "nothing to patch\n").2 := by
  intro stored i store
  have hnamed : store.IsNamed := by
    intro key document hget
    simp only [store, Entries.get?_cons] at hget
    split at hget
    · rename_i hkey
      cases hkey
      cases hget
      exact ⟨by decide, rfl⟩
    · cases hget
  have hhalt : (i.perform default none {} {} store).halt = none := by decide +kernel
  have hfaults : (i.perform default none {} {} store).store.faults = [] := by decide +kernel
  generalize hfirst : i.perform default none {} {} store = first at hhalt hfaults ⊢
  intro _ second
  obtain ⟨hstore, hsays⟩ := perform_again (i := i) .patch (Or.inl rfl) rfl hnamed
    (hfirst ▸ hhalt) (congrArg (·.store.objects) hfirst.symm) hfaults none {} {}
  obtain ⟨hagain, -, hout⟩ := hsays rfl
  have hkept := congrArg MemoryStore.objects hstore
  exact ⟨hnamed, hhalt, hfaults, hagain, hkept, hout rfl⟩

end Invocation

end BuilderControl
