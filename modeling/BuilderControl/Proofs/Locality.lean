import BuilderControl.Proofs.Commuting
import BuilderControl.Proofs.Repetition

/-!
# What commands have to do with

A command has to do with one entry of the store.  A patch is sent to the name that is found in an
object, so this rests on objects bearing the names that they are kept under, and everything that is
done keeps them so.  What is said of a run is said by other objects around the entry: the run does
the same amid them, and leaves the entry amid them as it would leave it.

## Key results

- `MemoryStore.LocalCall`: what a request has to do with
- `Action.LocalAt`, `Action.LocalAt.bind`: what a run has to do with, one step after the other
- `Command.localAt_run`: every command has to do with its entry only
-/

namespace BuilderControl

open Json MemoryStore

/-! ## The order of keys -/

/-- Types are told apart by their names. -/
theorem ResourceType.eq_of_name_eq {a b : ResourceType} (h : a.name = b.name) : a = b := by
  revert h
  cases a <;> cases b <;> decide

namespace StoreKey

/-- Keys are told apart by what they are ordered by. -/
theorem eq_of_parts_eq {a b : StoreKey} (h : a.parts = b.parts) : a = b := by
  obtain ⟨type, ns, name⟩ := a
  obtain ⟨type', ns', name'⟩ := b
  simp only [parts, List.cons.injEq, and_true] at h
  obtain ⟨htype, rfl, rfl⟩ := h
  rw [ResourceType.eq_of_name_eq htype]

instance : Std.Irrefl (fun a b : StoreKey => a < b) :=
  ⟨fun a => Std.Irrefl.irrefl (r := fun a b : List String => a < b) a.parts⟩

instance : Trans (fun a b : StoreKey => a < b) (fun a b : StoreKey => a < b)
    (fun a b : StoreKey => a < b) :=
  ⟨fun {a b c} hab hbc => Trans.trans (r := fun a b : List String => a < b)
    (s := fun a b : List String => a < b) (a := a.parts) (b := b.parts) (c := c.parts) hab hbc⟩

instance : Std.Trichotomous (fun a b : StoreKey => a < b) :=
  ⟨fun a b hab hba => eq_of_parts_eq
    (Std.Trichotomous.trichotomous (r := fun a b : List String => a < b) a.parts b.parts hab hba)⟩

end StoreKey

/-! ## Names -/

/-- A document in key order that has this name. -/
structure Json.Bears (document : Json) (name : String) : Prop where
  wellFormed : document.WellFormed
  named : document.at? ["metadata", "name"] = some (.str name)

/-- A patch in key order that says nothing about the metadata. -/
structure MergePatch.KeepsName (patch : MergePatch) : Prop where
  wellFormed : patch.toJson.WellFormed
  silent : patch.toJson.get? "metadata" = none

namespace Json.Bears

variable {document : Json} {name : String} (h : document.Bears name)
include h

/-- Counting the generation keeps the name. -/
theorem withGeneration (g : Int) : (MemoryStore.withGeneration document g).Bears name where
  wellFormed := wellFormed_withGeneration h.wellFormed g
  named := (at?_withGeneration_metadata (by simp) document g []).trans h.named

/-- A patch that is silent about the metadata keeps the name. -/
theorem patched {patch : MergePatch} (hpatch : patch.KeepsName) :
    (MemoryStore.patched patch document).Bears name := by
  obtain ⟨hw, hsilent⟩ := hpatch
  -- Nothing in the metadata is patched but the generation
  have hmetadata : (patch.apply document).get? "metadata" = document.get? "metadata" := by
    refine (get?_merge h.wellFormed hw.sorted "metadata").trans ?_
    rw [show Entries.get? patch.members "metadata" = none from hsilent, mergeMember_none]
  have hname : (patch.apply document).at? ["metadata", "name"] =
      document.at? ["metadata", "name"] := by
    rw [at?_cons, at?_cons, hmetadata]
  exact Bears.withGeneration ⟨h.wellFormed.merge hw, hname.trans h.named⟩ _

/-- An object is read with the name that the document has. -/
theorem name_eq {type : ResourceType} {r : Resource}
    (hr : Resource.ofJson (some type) document = .ok r) : r.name = name :=
  Resource.name_eq_of_ofJson h.wellFormed hr h.named

end Json.Bears

/-- A new builder is stored with its name. -/
theorem Builder.bears_initial_new (account : Account) (ns : Option String) (name : String)
    {content : Content} (ho : Order.IsNormal content.order) :
    (initial account.type (Builder.new account ns name content)).Bears name := by
  refine Bears.withGeneration ⟨wellFormed_identified account ns name ho, ?_⟩ 1
  rw [identified_eq]
  cases ns <;> rfl

/-- Changes of an object that was read say nothing about its metadata. -/
theorem Builder.Changes.keepsName_diff {type : ResourceType} {stored : Json}
    (hw : stored.WellFormed) {observed : Resource}
    (ho : Resource.ofJson (some type) stored = .ok observed) {c : Builder.Changes}
    (hc : c.places.Settable) :
    (Differ.standard.diff observed.document (c.apply observed).document).KeepsName := by
  have hwo := Resource.wellFormed_ofJson hw ho
  have hobject := Resource.isObject_document ho
  -- Only the spec is set, so the desired document is an object as well
  have hwd : (c.apply observed).document.WellFormed := by
    rw [document_apply]
    refine hwo.set (WellFormed.putAll ?_ hc.wellFormed) "spec"
    cases hspec : observed.document.get? "spec" with
    | none => trivial
    | some spec => exact hwo.get? hspec
  have hdo : (c.apply observed).document.isObject = true := by
    rw [document_apply]
    rfl
  refine ⟨Differ.wellFormed_diff Differ.serverOwnedFields hwo hwd hobject hdo, ?_⟩
  -- The metadata is the same on both sides
  rw [Differ.get?_standard_diff hwo hwd hobject hdo, if_neg (by simp), if_pos rfl, document_apply,
    get?_set, if_neg (by simp)]
  refine changeMember_self fun v hv => ?_
  obtain ⟨m, hm, rfl⟩ := Option.map_eq_some_iff.1 hv
  exact Differ.wellFormed_stripMetadata (hwo.get? hm)

/-! ## Requests -/

/-- The entry that a request is about. -/
def Call.key (call : Call) : StoreKey := .ofLocation call.type call.ns call.name

namespace MemoryStore

/-- Objects are in key order, and the one of a key has its name. -/
structure IsNamedAt (s : MemoryStore) (key : StoreKey) : Prop where
  sorted : Entries.Sorted s.objects
  bears : ∀ document, Entries.get? s.objects key = some document → document.Bears key.name

/-- The store with the entry of a key amid other objects. -/
def amid (others : Entries StoreKey Json) (key : StoreKey) (s : MemoryStore) : MemoryStore :=
  { s with objects := others.assign key (Entries.get? s.objects key) }

/-- A request that is about the entry of a key, and has to do with no other. -/
structure LocalCall {α : Type} (key : StoreKey) (call : MemoryStore → Answer MemoryStore α)
    (s : MemoryStore) : Prop where
  amid : ∀ others : Entries StoreKey Json, others.Sorted →
    call (s.amid others key) = (call s).changed (MemoryStore.amid others key)
  calls : ∃ made : Call, (call s).store.calls = s.calls ++ [made] ∧ made.key = key
  named : (call s).store.IsNamedAt key

/-- No answer depends on the objects around an entry, other than through the entry itself. -/
theorem unseen_amid (others : Entries StoreKey Json) (key : StoreKey) :
    Unseen (amid others key) := fun _ _ _ _ _ _ => rfl

/-- A watch is started in the same way amid other objects. -/
theorem watch_amid (others : Entries StoreKey Json) (key : StoreKey) (type : ResourceType)
    (ns : Option String) (name : String) (s : MemoryStore) :
    Store.watch type ns name (s.amid others key) =
      (Store.watch type ns name s).changed (amid others key) := rfl

section Amid

variable {others : Entries StoreKey Json} (hothers : others.Sorted) (key : StoreKey)
  (s : MemoryStore)
include hothers

/-- The entry is found amid other objects. -/
theorem get?_amid : Entries.get? (s.amid others key).objects key = Entries.get? s.objects key := by
  rw [amid, hothers.get?_assign, if_pos rfl]

/-- The entry is there amid other objects exactly if it is there. -/
theorem contains_amid :
    (s.amid others key).objects.contains key = s.objects.contains key := by
  rw [Entries.contains, get?_amid hothers]
  rfl

/-- Amid other objects, the entry is set as it is set. -/
theorem assign_amid (hs : s.objects.Sorted) (v : Option Json) :
    { s.amid others key with objects := (s.amid others key).objects.assign key v } =
      ({ s with objects := s.objects.assign key v } : MemoryStore).amid others key := by
  -- The entry is set last, so it does not matter what was there
  simp only [amid, hothers.assign_assign, hs.get?_assign, if_true]

end Amid

section Requests

variable {type : ResourceType} {ns : Option String} {name : String} {s : MemoryStore}

/-- What is named stays so while the objects do. -/
theorem IsNamedAt.of_objects_eq {key : StoreKey} (h : s.IsNamedAt key) {t : MemoryStore}
    (ht : t.objects = s.objects) : t.IsNamedAt key :=
  ⟨ht ▸ h.sorted, ht ▸ h.bears⟩

/-- Setting an entry to an object of its name, or to none, keeps it named. -/
theorem IsNamedAt.assign {key : StoreKey} (h : s.IsNamedAt key) {v : Option Json}
    (hv : ∀ document, v = some document → document.Bears key.name) {t : MemoryStore}
    (ht : t.objects = s.objects.assign key v) : t.IsNamedAt key := by
  refine ⟨ht ▸ h.sorted.assign key v, fun document hget => hv document ?_⟩
  rwa [ht, h.sorted.get?_assign, if_pos rfl] at hget

/-- An entry is named after a request if what the request does keeps it named. -/
theorem named_answer {α : Type} {key : StoreKey} {op : Operation} {kind : CallKind}
    {target : FaultTarget}
    {act : MemoryStore → Except Api.ErrorResponse (Except Error α × MemoryStore)}
    (hs : s.IsNamedAt key)
    (hact : ∀ t result u, t.objects = s.objects → act t = .ok (result, u) → u.IsNamedAt key) :
    (answer op type ns name (s.enter kind target type ns name) act).store.IsNamedAt key := by
  simp only [enter, answer]
  -- A planned fault leaves the objects as they are
  cases (takeFault target s.faults).1 with
  | some response => exact hs.of_objects_eq rfl
  | none =>
    simp only
    split
    · exact hs.of_objects_eq rfl
    · rename_i result u hu
      refine hact _ result u ?_ hu
      rfl

/-- What is answered to a patch was read from what is stored then. -/
theorem exists_of_patch_ok {patch : MergePatch} {r : Resource}
    (h : (Store.patch type ns name patch s).reply = .done (.ok r)) :
    ∃ document, Entries.get? s.objects (.ofLocation type ns name) = some document ∧
      Resource.ofJson (some type) (patched patch document) = .ok r := by
  cases hget : Entries.get? s.objects (.ofLocation type ns name) with
  | some document => exact ⟨document, rfl, of_patch_ok hget h⟩
  | none =>
    obtain ⟨t, hact, -⟩ := of_answer_ok h
    simp only [enter, hget] at hact
    cases hact

variable (h : s.IsNamedAt (.ofLocation type ns name))
include h

/-- A `get` has to do with its entry only. -/
theorem localCall_get : LocalCall (.ofLocation type ns name) (Store.get type ns name) s where
  amid others hothers := by
    refine answer_changed (unseen_amid others _) _ _ _ _ _ _ _ fun t _ => ?_
    simp only [get?_amid hothers]
    cases Entries.get? t.objects (.ofLocation type ns name) <;> rfl
  calls := ⟨_, calls_get type ns name s, rfl⟩
  named := h.of_objects_eq (objects_get type ns name s)

/-- A `create` has to do with the entry of the object that it sends. -/
theorem localCall_create {object : Resource} (hname : object.name = name)
    (hobject : (initial type object).Bears name) :
    LocalCall (.ofLocation type ns name) (Store.create type ns object) s := by
  subst hname
  refine ⟨fun others hothers => ?_, ⟨_, calls_create type ns s object, rfl⟩, ?_⟩
  · refine answer_changed (unseen_amid others _) _ _ _ _ _ _ _ fun t ht => ?_
    -- Whether the name is taken is up to the entry
    have hset := assign_amid hothers (.ofLocation type ns object.name) t (ht ▸ h.sorted)
      (some (initial type object))
    simp only [contains_amid hothers]
    split
    · rfl
    · exact congrArg (fun u => Except.ok (readStored type (initial type object), u)) hset
  · refine named_answer h fun t result u ht hu => ?_
    simp only at hu
    split at hu <;> cases hu
    refine (h.of_objects_eq ht).assign (v := some (initial type object)) ?_ rfl
    rintro _ ⟨⟩
    exact hobject

/-- A `patch` has to do with the entry that it is sent to, and keeps its name. -/
theorem localCall_patch {patch : MergePatch} (hpatch : patch.KeepsName) :
    LocalCall (.ofLocation type ns name) (Store.patch type ns name patch) s := by
  refine ⟨fun others hothers => ?_, ⟨_, calls_patch type ns name s patch, rfl⟩, ?_⟩
  · refine answer_changed (unseen_amid others _) _ _ _ _ _ _ _ fun t ht => ?_
    -- Only the entry of the location is read and replaced
    simp only [get?_amid hothers]
    cases hget : Entries.get? t.objects (.ofLocation type ns name) with
    | none => rfl
    | some document =>
      have hset := assign_amid hothers (.ofLocation type ns name) t (ht ▸ h.sorted)
        (some (patched patch document))
      exact congrArg (fun u => Except.ok (readStored type (patched patch document), u)) hset
  · -- What is patched bore the name, and the patch does not take it away
    refine named_answer h fun t result u ht hu => ?_
    cases hget : Entries.get? t.objects (.ofLocation type ns name) with
    | none => simp only [hget] at hu; cases hu
    | some document =>
      simp only [hget] at hu
      cases hu
      refine (h.of_objects_eq ht).assign (v := some (patched patch document)) ?_ rfl
      rintro _ ⟨⟩
      exact (h.bears document (ht ▸ hget)).patched hpatch

/-- A `delete` has to do with its entry only. -/
theorem localCall_delete : LocalCall (.ofLocation type ns name) (Store.delete type ns name) s := by
  refine ⟨fun others hothers => ?_, ⟨_, calls_delete type ns name s, rfl⟩, ?_⟩
  · refine answer_changed (unseen_amid others _) _ _ _ _ _ _ _ fun t ht => ?_
    have hset := assign_amid hothers (.ofLocation type ns name) t (ht ▸ h.sorted) none
    -- Whether there is something to delete is up to the entry
    simp only [contains_amid hothers]
    split
    · exact congrArg (fun u => (Except.ok (Except.ok (), u) :
        Except Api.ErrorResponse (Except Error Unit × MemoryStore))) hset
    · rfl
  · refine named_answer h fun t result u ht hu => ?_
    split at hu <;> cases hu
    refine (h.of_objects_eq ht).assign (v := none) ?_ rfl
    intro document hdocument
    cases hdocument

end Requests

end MemoryStore

/-! ## Runs -/

/-- A run that has to do with the entry of a key only: amid other objects it is the same, all its
requests are about the entry, and the entry keeps its name. -/
structure Action.LocalAt {α : Type} (key : StoreKey) (x : Action MemoryStore α)
    (w : World MemoryStore) : Prop where
  amid : ∀ others : Entries StoreKey Json, others.Sorted →
    x.CommutesAt (MemoryStore.amid others key) [] w
  calls : ∃ made : List Call, (x.run w).2.store.calls = w.store.calls ++ made ∧
    ∀ call ∈ made, call.key = key
  named : (x.run w).2.store.IsNamedAt key

namespace Action

variable {α β : Type} {key : StoreKey} {w : World MemoryStore}

/-- Steps that have to do with one entry only do so one after the other. -/
theorem LocalAt.bind {x : Action MemoryStore α} (hx : LocalAt key x w)
    {y : α → Action MemoryStore β}
    (hy : ∀ a w', x.run w = (.ok a, w') → w'.store.IsNamedAt key → LocalAt key (y a) w') :
    LocalAt key (x >>= y) w := by
  -- Amid other objects, in what is requested, and in the name that is kept
  refine ⟨fun others hothers => (hx.amid others hothers).bind fun a w' hrun => ?_, ?_, ?_⟩
  · have hnamed := hx.named
    rw [hrun] at hnamed
    exact (hy a w' hrun hnamed).amid others hothers
  · rw [run_bind]
    obtain ⟨made, hmade, hkeys⟩ := hx.calls
    have hnamed := hx.named
    cases hrun : x.run w with
    | mk result w' =>
      rw [hrun] at hmade hnamed
      cases result with
      | error halt => exact ⟨made, hmade, hkeys⟩
      | ok a =>
        -- What both steps request is about the entry
        obtain ⟨more, hmore, hkeys'⟩ := (hy a w' hrun hnamed).calls
        refine ⟨made ++ more, by rw [hmore, hmade, List.append_assoc], fun call hcall => ?_⟩
        exact (List.mem_append.1 hcall).elim (hkeys call) (hkeys' call)
  · rw [run_bind]
    have hnamed := hx.named
    cases hrun : x.run w with
    | mk result w' =>
      rw [hrun] at hnamed
      cases result with
      | error halt => exact hnamed
      | ok a => exact (hy a w' hrun hnamed).named

/-- A step that leaves the store alone has to do with no entry. -/
theorem LocalAt.of_store_eq {x : Action MemoryStore α} (hs : w.store.IsNamedAt key)
    (hstore : (x.run w).2.store = w.store)
    (hcommutes : ∀ f : MemoryStore → MemoryStore, x.CommutesAt f [] w) : LocalAt key x w where
  amid others _ := hcommutes (MemoryStore.amid others key)
  calls := ⟨[], by rw [hstore, List.append_nil], fun _ hcall => absurd hcall List.not_mem_nil⟩
  named := hstore ▸ hs

/-- A step that makes one request has to do with the entry that the request is about. -/
theorem localAt_request {call : MemoryStore → Answer MemoryStore α}
    (h : MemoryStore.LocalCall key call w.store) : LocalAt key (request call) w where
  amid others hothers := commutesAt_request (h.amid others hothers)
  calls := by
    obtain ⟨made, hmade, hkey⟩ := h.calls
    rw [run_request]
    exact ⟨[made], hmade, fun call hcall => List.mem_singleton.1 hcall ▸ hkey⟩
  named := by
    rw [run_request]
    exact h.named

section Quiet

variable (hs : w.store.IsNamedAt key)
include hs

/-- To give a value has to do with no entry. -/
theorem localAt_pure (a : α) : LocalAt key (pure a) w :=
  .of_store_eq hs rfl fun _ => commutesAt_pure a

/-- To look at what was read has to do with no entry. -/
theorem localAt_ofExcept (result : Except Error α) : LocalAt key (ofExcept result) w :=
  .of_store_eq hs (by rw [run_ofExcept]) fun _ => commutesAt_ofExcept result

/-- To log some lines has to do with no entry. -/
theorem localAt_logs (entries : List LogEntry) : LocalAt key
    (modify fun w : World MemoryStore => { w with logs := w.logs ++ entries }) w :=
  .of_store_eq hs rfl fun _ => commutesAt_logs entries

/-- To log a line has to do with no entry. -/
theorem localAt_log (level : Level) (text : String) : LocalAt key (log level text) w :=
  localAt_logs hs [⟨level, text⟩]

/-- To write has to do with no entry. -/
theorem localAt_emit (write : Router → Except Error Unit × Router) :
    LocalAt key (emit write) w :=
  .of_store_eq hs (by rw [run_emit]) fun _ => commutesAt_emit write

end Quiet

end Action

namespace Engine

open BuilderControl.Action

variable {type : ResourceType} {ns : Option String} {name : String} {w : World MemoryStore}
  (hs : w.store.IsNamedAt (.ofLocation type ns name))
include hs

/-- A look-up has to do with its entry only. -/
theorem localAt_lookUp : LocalAt (.ofLocation type ns name) (lookUp type ns name) w := by
  have hget := localCall_get hs
  refine ⟨fun others hothers => commutesAt_lookUp (hget.amid others hothers), ?_, ?_⟩
  · obtain ⟨made, hmade, hkey⟩ := hget.calls
    rw [run_lookUp]
    exact ⟨[made], hmade, fun call hcall => List.mem_singleton.1 hcall ▸ hkey⟩
  · rw [run_lookUp]
    exact hget.named

/-- To wait for an object has to do with its entry only. -/
theorem localAt_watch (patience : Patience) :
    LocalAt (.ofLocation type ns name) (watch patience type ns name) w := by
  -- However it goes on, the store is only asked to start the watch
  have hstore : ((watch patience type ns name).run w).2.store =
      (Store.watch type ns name w.store).store := by
    have halong := along_watch (R := fun s t => t = (Store.watch type ns name s).store)
      (fun _ => rfl) (fun _ _ hline => report_of_watch hline) patience
    exact halong w
  refine ⟨fun others _ => commutesAt_watch (watch_amid others _ type ns name) patience, ?_, ?_⟩
  · rw [hstore]
    exact ⟨[⟨.watch, type, ns, name⟩], rfl, fun call hcall => List.mem_singleton.1 hcall ▸ rfl⟩
  · exact hs.of_objects_eq (by rw [hstore]; rfl)

omit hs in
/-- What is found was read from what is stored. -/
theorem exists_of_lookUp_some {observed : Resource} {w' : World MemoryStore}
    (h : (lookUp type ns name).run w = (.ok (some observed), w')) :
    ∃ document, Entries.get? w.store.objects (.ofLocation type ns name) = some document ∧
      Resource.ofJson (some type) document = .ok observed := by
  rw [run_lookUp] at h
  obtain ⟨document, hget, hread, -⟩ := of_get_ok (Reply.eq_of_found_some (Prod.mk.inj h).1)
  exact ⟨document, hget, hread⟩

variable (s : Settings)

/-- Only a real run waits for an object, so only then does its name matter. -/
theorem localAt_converge {object : Resource} (hname : s.mode.dryRun = false → object.name = name) :
    LocalAt (.ofLocation type ns name) (converge s type ns object) w := by
  simp only [converge]
  -- Without waiting, the object is given back as it is
  split
  · exact localAt_pure hs object
  · rename_i hwait
    obtain rfl := hname (Mode.dryRun_of_shouldWait (by simpa using hwait))
    exact (localAt_log hs _ _).bind fun _ _ _ hs => (localAt_emit hs _).bind fun _ _ _ hs =>
      localAt_watch hs s.patience

omit hs in
/-- To tell a result has to do with no entry. -/
theorem localAt_tell {key : StoreKey} (hs : w.store.IsNamedAt key) (object : Resource)
    (text : String) : LocalAt key (tell object text) w :=
  (localAt_emit hs _).bind fun _ _ _ hs => localAt_emit hs _

/-- To report an object has to do with the entry of its name. -/
theorem localAt_report {object : Resource} (hname : s.mode.dryRun = false → object.name = name)
    (text : String) : LocalAt (.ofLocation type ns name) (report s type ns object text) w :=
  (localAt_converge hs s hname).bind fun object _ _ hs => localAt_tell hs object text

/-- To create an object has to do with the entry of its name. -/
theorem localAt_create {object : Resource} (hname : object.name = name)
    (hobject : (initial type object).Bears name) :
    LocalAt (.ofLocation type ns name) (create s type ns object) w := by
  simp only [create]
  split
  · refine (localAt_pure hs object).bind fun created w' hrun hs => ?_
    cases hrun
    exact localAt_report hs s (fun _ => hname) _
  · -- What is answered is what is stored, so it has the name as well
    refine (localAt_request (localCall_create hs hname hobject)).bind fun created w' hrun hs => ?_
    exact localAt_report hs s (fun _ => hobject.name_eq (of_create_ok (run_request_ok.1 hrun).1)) _

/-- What is patched is the object that is named. -/
theorem localAt_patch {observed desired : Resource} (hname : observed.name = name)
    (hpatch : (s.differ.diff observed.document desired.document).KeepsName) :
    LocalAt (.ofLocation type ns name) (patch s type ns observed desired) w := by
  simp only [patch]
  refine (localAt_logs hs _).bind fun _ _ _ hs => ?_
  split
  · exact localAt_tell hs observed _
  · refine (localAt_log hs _ _).bind fun _ w hlog hs => ?_
    split
    · rename_i hdry
      refine (localAt_pure hs desired).bind fun patched w' hrun hs => ?_
      exact localAt_report hs s (fun hreal => by rw [hdry] at hreal; cases hreal) _
    · subst hname
      refine (localAt_request (localCall_patch hs hpatch)).bind fun patched w' hrun hs' => ?_
      obtain ⟨document, hget, hread⟩ := exists_of_patch_ok (run_request_ok.1 hrun).1
      exact localAt_report hs' s (fun _ => ((hs.bears document hget).patched hpatch).name_eq hread) _

/-- What is saved is the object that is found under the name, or made with it. -/
theorem localAt_save {update : Resource → Resource} {make : Except Error Resource}
    (hupdate : ∀ document observed, document.WellFormed →
      Resource.ofJson (some type) document = .ok observed →
      (s.differ.diff observed.document (update observed).document).KeepsName)
    (hmake : ∀ object, make = .ok object → object.name = name ∧ (initial type object).Bears name) :
    LocalAt (.ofLocation type ns name) (save s type ns name update make) w := by
  refine (localAt_lookUp hs).bind fun found w' hrun hs' => ?_
  cases found with
  | some observed =>
    -- The patch goes to the name in the object, so it matters where the object is from
    obtain ⟨document, hget, hread⟩ := exists_of_lookUp_some hrun
    have hdocument := hs.bears document hget
    exact localAt_patch hs' s (hdocument.name_eq hread)
      (hupdate document observed hdocument.wellFormed hread)
  | none =>
    refine (localAt_log hs' _ _).bind fun _ _ _ hs => (localAt_ofExcept hs make).bind
      fun object _ hmade hs => ?_
    rw [run_ofExcept] at hmade
    obtain ⟨hname, hobject⟩ := hmake object (Except.mapError_ok_iff.1 (Prod.mk.inj hmade).1)
    exact localAt_create hs s hname hobject

/-- To delete an object has to do with its entry only. -/
theorem localAt_delete : LocalAt (.ofLocation type ns name) (delete s type ns name) w := by
  simp only [delete]
  -- In a dry run the store is not asked
  split
  · exact (localAt_request (localCall_delete hs)).bind fun _ _ _ hs => localAt_emit hs _
  · exact localAt_emit hs _

/-- To show an object has to do with its entry only. -/
theorem localAt_show (describe : Resource → String) :
    LocalAt (.ofLocation type ns name) («show» s type ns name describe) w := by
  refine (localAt_request (localCall_get hs)).bind fun object _ _ hs => ?_
  split <;> exact localAt_emit hs _

end Engine

/-! ## Commands -/

namespace Command

open BuilderControl.Action Engine

/-- The entry of the store that a command names: types of the whole cluster are looked up without a
namespace. -/
def entry : Command → StoreKey
  | .create account ns name _ _ _ _ => .ofLocation account.type ns name
  | .patch type ns name _ => .ofLocation type ns name
  | .save account ns name _ => .ofLocation account.type ns name
  | .delete type ns name => .ofLocation type ns name
  | .get type ns name => .ofLocation type (if type.isClusterScoped then none else ns) name

section Run

variable {files : Files} {s : Settings} {w : World MemoryStore}

/-- What builders are changed by says nothing about their metadata. -/
private theorem keepsName_of_read (hdiffer : s.differ = .standard) {request : ChangeRequest}
    {changes : Builder.Changes} (hread : request.read files = .ok changes) {type : ResourceType}
    {document : Json} (hw : document.WellFormed) {observed : Resource}
    (ho : Resource.ofJson (some type) document = .ok observed) :
    (s.differ.diff observed.document (changes.apply observed).document).KeepsName := by
  rw [hdiffer]
  exact Builder.Changes.keepsName_diff hw ho (settable_of_read hread)

/-- `create` has to do with the entry of the new builder. -/
private theorem localAt_run_create {account : Builder.Account} {ns : Option String}
    {name tag stack store path : String} (hs : w.store.IsNamedAt (.ofLocation account.type ns name)) :
    LocalAt (.ofLocation account.type ns name)
      ((create account ns name tag stack store path).run files s) w := by
  have hcreate : LocalAt (.ofLocation account.type ns name)
      (Action.ofExcept (Order.ofFile files path) >>= fun order => Engine.create s account.type ns
        (Builder.new account ns name ⟨tag, stack, store, order⟩)) w := by
    refine (localAt_ofExcept hs _).bind fun order w' hrun hs => ?_
    rw [run_ofExcept] at hrun
    have horder := Except.mapError_ok_iff.1 (Prod.mk.inj hrun).1
    exact localAt_create hs s (Builder.name_new account ns name _)
      (Builder.bears_initial_new account ns name (Order.isNormal_ofFile horder))
  simp only [run]
  split
  · -- An empty tag is refused before anything else
    exact (localAt_ofExcept hs (.error (.invalid .emptyTag))).bind fun _ _ hrun _ => by cases hrun
  · exact hcreate

variable (hdiffer : s.differ = .standard)
include hdiffer

/-- `patch` has to do with the entry that it gets. -/
private theorem localAt_run_patch {type : ResourceType} {ns : Option String} {name : String}
    {request : ChangeRequest} (hs : w.store.IsNamedAt (.ofLocation type ns name)) :
    LocalAt (.ofLocation type ns name) ((patch type ns name request).run files s) w := by
  refine (localAt_ofExcept hs _).bind fun changes _ hchanges hs =>
    (localAt_request (localCall_get hs)).bind fun observed w' hrun hs' => ?_
  rw [run_ofExcept] at hchanges
  have hread := Except.mapError_ok_iff.1 (Prod.mk.inj hchanges).1
  -- What was got bears the name that it was asked for by
  obtain ⟨document, hget, ho, -⟩ := of_get_ok (run_request_ok.1 hrun).1
  have hdocument := hs.bears document hget
  exact localAt_patch hs' s (hdocument.name_eq ho)
    (keepsName_of_read hdiffer hread hdocument.wellFormed ho)

/-- `save` has to do with the entry that it looks up, whether it finds something or not. -/
private theorem localAt_run_save {account : Builder.Account} {ns : Option String} {name : String}
    {request : ChangeRequest} (hs : w.store.IsNamedAt (.ofLocation account.type ns name)) :
    LocalAt (.ofLocation account.type ns name) ((save account ns name request).run files s) w := by
  refine (localAt_ofExcept hs _).bind fun changes _ hchanges hs => ?_
  rw [run_ofExcept] at hchanges
  have hread := Except.mapError_ok_iff.1 (Prod.mk.inj hchanges).1
  refine localAt_save hs s (fun _ _ hw ho => keepsName_of_read hdiffer hread hw ho)
    fun object hobject => ?_
  obtain ⟨content, hcontent, rfl⟩ := Except.map_ok_iff.1 hobject
  rw [Except.mapError_ok_iff] at hcontent
  exact ⟨Builder.name_new account ns name content, Builder.bears_initial_new account ns name
    (Builder.Changes.isNormal_of_read hread _ (Builder.Changes.order_of_content hcontent))⟩

end Run

/-- A command has to do with the entry that it names only. -/
theorem localAt_run (c : Command) (files : Files) {s : Settings} (hdiffer : s.differ = .standard)
    {w : World MemoryStore} (hs : w.store.IsNamedAt c.entry) :
    LocalAt c.entry (c.run files s) w := by
  cases c with
  | create account ns name tag stack store order => exact localAt_run_create hs
  | patch type ns name request => exact localAt_run_patch hdiffer hs
  | save account ns name request => exact localAt_run_save hdiffer hs
  | delete type ns name => exact localAt_delete hs s
  | get type ns name => exact localAt_show hs s describe

end Command

end BuilderControl
