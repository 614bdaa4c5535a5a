import BuilderControl.Invocation
import BuilderControl.Proofs.Actions
import BuilderControl.Proofs.Generation
import BuilderControl.Proofs.Requests

/-!
# Updates of builders

`patch` and `save` change a builder by what was observed of it, but the patch they submit sets the
changed fields and nothing else, so this is all that happens to the stored document.

## Key results

- `Builder.diff_apply`: the patch sets those that are not there already
- `Invocation.perform_update`: what an invocation does to the store
-/

namespace BuilderControl

open Json Schema Schemas Differ MemoryStore

namespace Builder

/-! ## Room in the specs of builders -/

/-- The specs of both builder types have the fields that can be changed. -/
theorem exists_builderSpec {type : ResourceType} (h : type = .builder ∨ type = .clusterBuilder) :
    ∃ shape own, type.schema = build type (.record shape own builderFields) ∧
      shape.positional = false ∧ Separate shape own builderFields := by
  rcases h with rfl | rfl
  · exact ⟨_, _, rfl, rfl, by decide, Or.inr ⟨rfl, rfl⟩⟩
  · exact ⟨_, _, rfl, rfl, by decide, Or.inr ⟨rfl, rfl⟩⟩

/-- Where a text is read, a text can be set. -/
theorem hasRoom_text {v x : Json} (h : decode .memory .text v = .ok x) :
    v.HasRoom [] ∧ x.HasRoom [] := by
  obtain ⟨t, ht, rfl⟩ := Except.map_ok_iff.1 h
  cases v <;> first | exact ⟨rfl, rfl⟩ | cases ht

/-- Where a list is read, a list can be set. -/
theorem hasRoom_list {item : Schema} {v x : Json} (h : decode .memory (.list item) v = .ok x) :
    v.HasRoom [] ∧ x.HasRoom [] := by
  cases v with
  | arr items =>
    obtain ⟨_, -, rfl⟩ := Except.map_ok_iff.1 h
    exact ⟨rfl, rfl⟩
  | _ => cases h

/-- The name in a reference can be set, in what is stored and in what is observed. -/
theorem hasRoom_reference {v x : Json} (hw : v.WellFormed)
    (h : decode .memory objectReference v = .ok x) : v.HasRoom ["name"] ∧ x.HasRoom ["name"] := by
  obtain ⟨ms, rfl⟩ := isObject_iff.1 (isObject_of_decode_record rfl h)
  have hseparate : Separate { title := "ObjectReference" }
      [optional "apiVersion" .text, optional "fieldPath" .text, optional "kind" .text,
        optional "name" .text, optional "namespace" .text, optional "resourceVersion" .text,
        optional "uid" .text] [] := ⟨by decide, Or.inl rfl⟩
  obtain ⟨xs, rfl, hreads⟩ := of_decode_record hw.sorted hseparate h
  have hname := hreads.field (optional "name" .text) (by simp)
  have hroom : (∀ v, Entries.get? ms "name" = some v → v.HasRoom []) ∧
      ∀ x, Entries.get? xs "name" = some x → x.HasRoom [] := by
    -- The name is absent, `null` or a text
    rcases readField_optional.1 hname with ⟨hnull, hx⟩ | ⟨v, x, hv, -, hread, hx⟩
    · refine ⟨fun v hv => ?_, fun x hx' => ?_⟩
      · cases (congrArg (·.getD .null) hv).symm.trans hnull
        rfl
      · cases hx.symm.trans hx'
    · refine ⟨fun _ hv' => ?_, fun _ hx' => ?_⟩
      · cases hv.symm.trans hv'
        exact (hasRoom_text hread).1
      · cases hx.symm.trans hx'
        exact (hasRoom_text hread).2
  exact ⟨⟨rfl, hroom.1⟩, ⟨rfl, hroom.2⟩⟩

/-- Room in a field that has a value when it is absent. -/
theorem hasRoom_defaulted {s : Schema} {key : String} {value : Json} {always : Bool}
    {names : List String} (hvalue : value.HasRoom names)
    (hs : ∀ v x, v.WellFormed → decode .memory s v = .ok x → v.HasRoom names ∧ x.HasRoom names)
    {raw read : Option Json} (hw : ∀ v, raw = some v → v.WellFormed)
    (h : readField (⟨key, .defaulted value always⟩, s) raw = .ok read) :
    (∀ v, raw = some v → v.HasRoom names) ∧ ∀ x, read = some x → x.HasRoom names := by
  -- Either what was observed stands for an absent value, or it was read from one that is there
  rcases readField_defaulted.1 h with ⟨rfl, rfl⟩ | ⟨v, x, rfl, hx, rfl⟩
  · refine ⟨fun _ => nofun, fun x hx => ?_⟩
    split at hx <;> cases hx
    exact hvalue
  · obtain ⟨hv, hxroom⟩ := hs v x (hw v rfl) hx
    refine ⟨fun _ heq => Option.some.inj heq ▸ hv, fun _ heq => ?_⟩
    split at heq <;> cases heq
    exact hxroom

section Room

variable {shape : RecordShape} {own : List (FieldInfo × Schema)} {ms os : Entries String Json}
  (hd : Separate shape own builderFields) (hw : (Json.obj ms).WellFormed)
  (h : decode .memory (.record shape own builderFields) (.obj ms) = .ok (.obj os))
include hd hw h

/-- The changed values can be set in what is stored and in what is observed. -/
theorem hasRoom_spec {c : Changes} {p : String × List String × Json} (hp : p ∈ c.places) :
    (Json.obj ms).HasRoom (p.1 :: p.2.1) ∧ (Json.obj os).HasRoom (p.1 :: p.2.1) := by
  obtain ⟨_, heq, hreads⟩ := of_decode_record hw.sorted hd h
  cases heq
  have hfield : ∀ f ∈ builderFields,
      readField f (Entries.get? ms f.1.key) = .ok (Entries.get? os f.1.key) :=
    fun f hf => hreads.field f (List.mem_append_right _ hf)
  -- What stands for absent values has room as well
  have htext : (Json.str "").HasRoom [] := rfl
  have hlist : (Json.arr []).HasRoom [] := rfl
  have hreference : (Json.obj []).HasRoom ["name"] := ⟨rfl, fun _ => nofun⟩
  have hroom : (∀ v, Entries.get? ms p.1 = some v → v.HasRoom p.2.1) ∧
      ∀ x, Entries.get? os p.1 = some x → x.HasRoom p.2.1 := by
    rcases Changes.mem_places_iff.1 hp with ⟨_, -, rfl⟩ | ⟨_, -, rfl⟩ | ⟨_, -, rfl⟩ | ⟨_, -, rfl⟩
    · exact hasRoom_defaulted htext (fun _ _ _ => hasRoom_text) (fun _ => hw.member)
        (hfield (defaulted "tag" (.str "") .text) (by simp [builderFields]))
    · exact hasRoom_defaulted hreference (fun _ _ => hasRoom_reference)
        (fun _ => hw.member)
        (hfield (defaulted "stack" (.obj []) objectReference) (by simp [builderFields]))
    · exact hasRoom_defaulted hreference (fun _ _ => hasRoom_reference)
        (fun _ => hw.member)
        (hfield (defaulted "store" (.obj []) objectReference) (by simp [builderFields]))
    · exact hasRoom_defaulted hlist (fun _ _ _ => hasRoom_list) (fun _ => hw.member)
        (hfield (omitted "order" (.arr []) (.list orderEntry)) (by simp [builderFields]))
  exact ⟨⟨rfl, hroom.1⟩, ⟨rfl, hroom.2⟩⟩

end Room

/-! ## Documents -/

/-- A patch that sets values in a spec. -/
def specPatch (places : Placements) : MergePatch := ⟨[("spec", (Json.obj []).putAll places)]⟩

/-- A stored builder with values set in its spec, and a new generation unless there are none. -/
def updated (stored : Json) (places : Placements) : Json :=
  if places = [] then stored
  else withGeneration (stored.set "spec" ((Json.ofOption (stored.get? "spec")).putAll places))
    (generationOf stored + 1)

/-- Values that are asked for and were not observed. -/
def Changes.pending (c : Changes) (observed : Resource) : Placements :=
  (Json.ofOption (observed.document.get? "spec")).pending c.places

/-- Whether a spec holds a value can be told from the document around it. -/
theorem holds_spec_iff {document : Json} {p : String × List String × Json} :
    (Json.ofOption (document.get? "spec")).holds p = true ↔
      (document.at? ("spec" :: p.1 :: p.2.1)).map canon = some p.2.2.canon := by
  rw [holds_iff, at?_cons document]
  cases document.get? "spec" <;> rfl

/-- What is pending is asked for, and it is not what was observed at its place. -/
theorem Changes.mem_pending_iff {c : Changes} {observed : Resource}
    {p : String × List String × Json} : p ∈ c.pending observed ↔ p ∈ c.places ∧
      (observed.document.at? ("spec" :: p.1 :: p.2.1)).map canon ≠ some p.2.2.canon := by
  rw [pending, Json.pending, List.mem_filter, Bool.not_eq_true', ← Bool.not_eq_true, holds_spec_iff]

/-- What is pending is asked for, in the same order. -/
theorem Changes.pending_sublist (c : Changes) (observed : Resource) :
    (c.pending observed).Sublist c.places := List.filter_sublist

/-- Fields of a stored builder that are not set stay as they are. -/
theorem at?_updated (stored : Json) {places : Placements} {names : List String}
    (h : ∀ p ∈ places, ¬ ("spec" :: p.1 :: p.2.1) <+: names ∧ ¬ names <+: "spec" :: p.1 :: p.2.1)
    (hg : ¬ ["metadata", "generation"] <+: names ∧ ¬ names <+: ["metadata", "generation"]) :
    (updated stored places).at? names = stored.at? names := by
  rw [updated]
  split
  · rfl
  · rename_i hne
    -- The place is apart from the generation, so what matters is the spec
    refine (at?_put_of_apart _ _ hg.1 hg.2).trans ?_
    match names with
    | [] => exact absurd List.nil_prefix hg.2
    | k :: names =>
      rw [at?_cons, at?_cons, get?_set]
      split
      · rename_i hk
        subst hk
        simp only [List.cons_prefix_cons, true_and] at h
        rw [Option.bind_some, at?_putAll _ h]
        cases hspec : stored.get? "spec" with
        | some spec => rfl
        | none =>
          -- At the spec itself, something is set
          cases names with
          | nil =>
            obtain ⟨p, hp⟩ := List.exists_mem_of_ne_nil _ hne
            exact absurd List.nil_prefix (h p hp).2
          | cons l names => rfl
      · rfl

section Documents

variable {type : ResourceType} (htype : type = .builder ∨ type = .clusterBuilder) {stored : Json}
  (hw : stored.WellFormed) {observed : Resource}
  (ho : Resource.ofJson (some type) stored = .ok observed)
include htype hw ho

/-- What is stored and what is observed of it are objects with a spec, and there is room in it for
all changes. -/
theorem exists_spec : ∃ ms os raw spec, stored = .obj ms ∧ observed.document = .obj os ∧
    Entries.get? ms "spec" = some (.obj raw) ∧ Entries.get? os "spec" = some (.obj spec) ∧
    ∀ (c : Changes), ∀ p ∈ c.places,
      (Json.obj raw).HasRoom (p.1 :: p.2.1) ∧ (Json.obj spec).HasRoom (p.1 :: p.2.1) := by
  obtain ⟨shape, own, hschema, hp, hd⟩ := exists_builderSpec htype
  obtain ⟨-, hx⟩ := Resource.ofJson_eq_ok_iff.1 ho
  rw [hschema] at hx
  obtain ⟨ms, rfl⟩ := isObject_iff.1 (isObject_of_decode_record rfl hx)
  obtain ⟨os, hos, hreads⟩ := of_decode_record hw.sorted (separate_build _ _) hx
  obtain ⟨v, y, hv, hy, hget⟩ := readField_required.1
    (hreads.field (required "spec" (.record shape own builderFields)) (by simp [buildFields]))
  -- The spec is an object on both sides, as that of a builder is not read from a list
  obtain ⟨raw, rfl⟩ := isObject_iff.1 (isObject_of_decode_record hp hy)
  obtain ⟨spec, rfl⟩ := isObject_iff.1 (isObject_decode_record hy)
  exact ⟨ms, os, raw, spec, rfl, hos, hv, hget,
    fun c p hmem => hasRoom_spec hd (hw.member hv) hy hmem⟩

/-- Only what was not observed is in the patch. -/
theorem diff_apply {c : Changes} (hc : c.places.Settable) :
    standard.diff observed.document (c.apply observed).document =
      if c.pending observed = [] then ⟨[]⟩ else specPatch (c.pending observed) := by
  have hwo := Resource.wellFormed_ofJson hw ho
  obtain ⟨_, os, _, spec, -, hos, -, hspec, hroom⟩ := exists_spec htype hw ho
  obtain ⟨observedType, document⟩ := observed
  cases hos
  have hws : (Json.obj spec).WellFormed := hwo.member hspec
  -- All that differs between the two documents is the spec.
  have hdesired : (c.apply ⟨observedType, .obj os⟩).document =
      (Json.obj os).set "spec" ((Json.obj spec).putAll c.places) := by
    rw [Changes.document_apply, get?_obj, hspec]
    rfl
  have hpending : c.pending ⟨observedType, .obj os⟩ = (Json.obj spec).pending c.places := by
    rw [Changes.pending, get?_obj, hspec]
    rfl
  have hwd := hwo.set (hws.putAll hc.wellFormed) "spec"
  have hchange := change_putAll hc hws fun p hp => (hroom c p hp).2
  have hsorted := (wellFormed_diff serverOwnedFields hwo hwd rfl rfl).sorted
  rw [hdesired, hpending]
  refine MergePatch.ext (hsorted.ext ?_ fun k => ?_)
  · split
    · exact Entries.sorted_nil
    · exact Entries.sorted_singleton _
  · -- Apart from the spec, no member is changed, with or without the fields of the server
    refine (get?_standard_diff hwo hwd rfl rfl k).trans ?_
    rw [get?_set]
    by_cases hk : k = "spec"
    · subst hk
      rw [if_neg (by simp), if_neg (by simp), if_pos rfl, get?_obj, hspec, changeMember_some,
        hchange]
      split <;> rfl
    · have hnone : Entries.get? (if (Json.obj spec).pending c.places = [] then ⟨[]⟩
          else specPatch ((Json.obj spec).pending c.places) : MergePatch).members k = none := by
        split
        · rfl
        · simp [specPatch, Entries.get?_cons, hk]
      rw [hnone, if_neg hk]
      split
      · rfl
      · split
        · refine changeMember_self fun v hv => ?_
          obtain ⟨m, hm, rfl⟩ := Option.map_eq_some_iff.1 hv
          exact wellFormed_stripMetadata (hwo.get? hm)
        · exact changeMember_self fun v hv => hwo.get? hv

/-- A patch that sets values in the spec of a stored builder. -/
theorem patched_specPatch {places : Placements} (hp : places.Settable) (hne : places ≠ []) :
    patched (specPatch places) stored = updated stored places := by
  obtain ⟨ms, _, raw, _, rfl, -, hraw, -⟩ := exists_spec htype hw ho
  -- The patch has a spec, so none is removed
  have hnull : (Json.obj []).putAll places ≠ .null := fun hnull => by
    have hobj : ((Json.obj []).putAll places).isObject = true := isObject_putAll rfl
    rw [hnull] at hobj
    cases hobj
  have happly : (specPatch places).apply (.obj ms) =
      (Json.obj ms).set "spec" ((Json.ofOption ((Json.obj ms).get? "spec")).putAll places) := by
    rw [MergePatch.apply, specPatch, MergePatch.toJson, merge_singleton _ _ hnull, get?_obj, hraw]
    exact congrArg _ (merge_putAll hp (hw.member hraw) rfl)
  have hgeneration :
      generationOf ((specPatch places).apply (.obj ms)) = generationOf (.obj ms) := by
    rw [happly, generationOf, get?_set, if_neg (by simp)]
    rfl
  rw [patched, hgeneration, happly, updated, if_neg hne]

/-- The generation of a stored builder can be set. -/
theorem hasRoom_generation : stored.HasRoom ["metadata", "generation"] := by
  obtain ⟨shape, own, hschema, -⟩ := exists_builderSpec htype
  obtain ⟨-, hx⟩ := Resource.ofJson_eq_ok_iff.1 ho
  rw [hschema] at hx
  obtain ⟨ms, rfl⟩ := isObject_iff.1 (isObject_of_decode_record rfl hx)
  obtain ⟨xs, hxs⟩ := isObject_iff.1 (isObject_decode_record hx)
  rw [hxs] at hx
  obtain ⟨m, y, hm, hread, -⟩ := exists_metadata_of_decode hw.sorted hx
  obtain ⟨_, heq, hreads⟩ := of_decode_record (hw.member hm).sorted separate_objectMeta hread
  cases heq
  have hgeneration := hreads.field (optional "generation" (.integer .signed64))
    (by simp [objectMetaFields])
  refine ⟨rfl, fun _ hm' => ?_⟩
  cases hm.symm.trans hm'
  refine ⟨rfl, fun v hv => ?_⟩
  -- The generation is absent, `null` or a number
  rcases readField_optional.1 hgeneration with ⟨hnull, -⟩ | ⟨w, x, hw, -, hx, -⟩
  · cases (congrArg (·.getD .null) hv).symm.trans hnull
    rfl
  · cases hw.symm.trans hv
    cases v <;> first | rfl | cases hx

/-- Nothing in a stored builder is lost when values are set. -/
theorem isSome_at?_updated {c : Changes} {places : Placements} (hc : c.places.Settable)
    (hp : places.Sublist c.places) (names : List String) (h : (stored.at? names).isSome) :
    ((updated stored places).at? names).isSome := by
  obtain ⟨ms, _, raw, _, rfl, -, hraw, -, hroom⟩ := exists_spec htype hw ho
  obtain ⟨-, hgeneration⟩ := hasRoom_generation htype hw ho
  rw [updated]
  split
  · exact h
  · -- First the spec, then the generation, in which there is room for a number
    have hkept : (((Json.obj ms).set "spec" ((Json.ofOption
        ((Json.obj ms).get? "spec")).putAll places)).at? names).isSome := by
      -- The path ends at the document, or leads into it. In the spec it stays, as values are put
      -- beside it.
      cases names with
      | nil => rfl
      | cons k names =>
        rw [at?_cons] at h ⊢
        rw [get?_set]
        split
        · rename_i hk
          subst hk
          rw [get?_obj, hraw] at h ⊢
          exact isSome_at?_putAll (hc.sublist hp).distinct
            (fun p hmem => (hroom c p (hp.subset hmem)).1) h
        · exact h
    have hroom : ((Json.obj ms).set "spec" ((Json.ofOption
        ((Json.obj ms).get? "spec")).putAll places)).HasRoom ["metadata", "generation"] := by
      refine ⟨rfl, fun m hm => hgeneration m ?_⟩
      rwa [get?_set, if_neg (by simp)] at hm
    exact isSome_at?_put _ hroom hkept

/-- A builder is patched unless all values that are asked for are observed already. -/
theorem watches_patch {c : Changes} (hc : c.places.Settable) {s : Settings}
    (hdiffer : s.differ = .standard) (hdry : s.mode.dryRun = false) (ns : Option String)
    {w : World MemoryStore} (hfaults : w.store.faults = [])
    (hget : Entries.get? w.store.objects (.ofLocation type ns observed.name) = some stored) :
    (if c.pending observed = [] then w.store
      else w.store.afterPatch type ns observed.name (specPatch (c.pending observed))
        stored).Watches ((Engine.patch s type ns observed (c.apply observed)).run w).2.store := by
  have hdiff := diff_apply htype hw ho hc
  rw [← hdiffer] at hdiff
  -- Without a patch nothing is submitted, and so nothing is waited for
  by_cases hnone : c.pending observed = []
  · rw [if_pos hnone] at hdiff ⊢
    rw [Engine.quiet_patch type ns observed (c.apply observed) (by rw [hdiff]; rfl) w]
    exact Watches.refl w.store
  · rw [if_neg hnone] at hdiff ⊢
    have hwatches := Engine.along_patch type ns observed (c.apply observed) hdry
      (by rw [hdiff]; rfl) Watches.refl (fun object => Engine.along_converge s type ns object) w
    have hfault : (takeFault (.operation .patch) w.store.faults).1 = none := by
      rw [hfaults]
      rfl
    rwa [hdiff, patch_store _ hfault hget] at hwatches

end Documents

end Builder

/-! ## Commands -/

namespace Command

open BuilderControl.Action

/-- A command that changes a builder if there is one. -/
inductive Updates (type : ResourceType) (ns : Option String) (name : String)
    (request : ChangeRequest) : Command → Prop
  | patch : Updates type ns name request (.patch type ns name request)
  | save (account : Builder.Account) (h : account.type = type) :
    Updates type ns name request (.save account ns name request)

variable {type : ResourceType} {ns : Option String} {name : String} {request : ChangeRequest}

/-- Where there is a builder, both commands get it and patch it. -/
theorem run_update {command : Command} (hcommand : command.Updates type ns name request)
    {files : Files} {changes : Builder.Changes} (hread : request.read files = .ok changes)
    {w : World MemoryStore} (hfaults : w.store.faults = []) {stored : Json}
    (hget : Entries.get? w.store.objects (.ofLocation type ns name) = some stored)
    {observed : Resource} (ho : Resource.ofJson (some type) stored = .ok observed) (s : Settings) :
    ∃ u : World MemoryStore,
      u.store = { w.store with calls := w.store.calls ++ [⟨.get, type, ns, name⟩] } ∧
      u.router = w.router ∧ (command.run files s).run w =
        (Engine.patch s type ns observed (changes.apply observed)).run u := by
  -- Reading the request leaves the world as it is
  have hchanges : (Action.ofExcept (request.read files) : Action MemoryStore _).run w =
      (.ok changes, w) := by
    rw [run_ofExcept, hread]
    rfl
  have hrequest : (Action.request (Store.get type ns name) : Action MemoryStore Resource).run w =
      (.ok observed, { w with
        store := { w.store with calls := w.store.calls ++ [⟨.get, type, ns, name⟩] } }) := by
    rw [run_request, get_eq hfaults hget ho, List.append_nil]
    rfl
  cases hcommand with
  | patch =>
    refine ⟨_, ?_, ?_, (run_bind_of_ok hchanges).trans (run_bind_of_ok hrequest)⟩ <;> rfl
  | save account htype =>
    subst htype
    -- The builder is there, so nothing is created
    refine ⟨_, ?_, ?_, (run_bind_of_ok hchanges).trans
      (run_bind_of_ok (run_tryCatch_of_ok _ (run_map_of_ok some hrequest)))⟩ <;> rfl

end Command

/-! ## Invocations -/

namespace Invocation

open Engine Builder

variable {type : ResourceType} {ns : Option String} {name : String}

/-- What an update of a builder does to the store: the builder is got, a patch that sets what was
asked for and not observed is submitted unless there is nothing to set, and at most one watch is
started. -/
structure Updated (type : ResourceType) (ns : Option String) (name : String) (stored : Json)
    (places : Placements) (store store' : MemoryStore) : Prop where
  calls : ∃ watches : List Call,
    store'.calls = store.calls ++ [⟨.get, type, ns, name⟩] ++
      (if places = [] then []
        else [⟨.patch (.obj [("spec", (Json.obj []).putAll places)]), type, ns, name⟩]) ++ watches ∧
      (watches = [] ∨ ∃ type ns name, watches = [⟨.watch, type, ns, name⟩])
  object : Entries.get? store'.objects (.ofLocation type ns name) = some (updated stored places)
  others : ∀ key, key ≠ StoreKey.ofLocation type ns name →
    Entries.get? store'.objects key = Entries.get? store.objects key
  /-- Only the generation and what is set are different. -/
  kept : ∀ names,
    (∀ p ∈ places, ¬ ("spec" :: p.1 :: p.2.1) <+: names ∧ ¬ names <+: "spec" :: p.1 :: p.2.1) →
    ¬ ["metadata", "generation"] <+: names ∧ ¬ names <+: ["metadata", "generation"] →
    (updated stored places).at? names = stored.at? names
  /-- Nothing is removed. -/
  present : ∀ names, (stored.at? names).isSome → ((updated stored places).at? names).isSome

/-- A store is updated if the builder was got, patched unless there is nothing to set, and watched
at most. -/
private theorem Updated.of_watches {stored : Json} {places : Placements}
    {store got store' : MemoryStore}
    (hgot : got = { store with calls := store.calls ++ [⟨.get, type, ns, name⟩] })
    (hget : Entries.get? store.objects (.ofLocation type ns name) = some stored)
    (hpatched : places ≠ [] → patched (specPatch places) stored = updated stored places)
    (hpresent : ∀ names, (stored.at? names).isSome → ((updated stored places).at? names).isSome)
    (hwatches : (if places = [] then got
      else got.afterPatch type ns name (specPatch places) stored).Watches store') :
    Updated type ns name stored places store store' := by
  subst hgot
  -- What there is to set decides whether a patch is submitted
  by_cases hnone : places = []
  · rw [if_pos hnone] at hwatches
    refine ⟨?_, ?_, fun key _ => by rw [hwatches.objects], fun _ => at?_updated stored, hpresent⟩
    · rw [if_pos hnone, List.append_nil]
      exact hwatches.calls
    · rw [hwatches.objects, hnone]
      exact hget
  · rw [if_neg hnone] at hwatches
    refine ⟨?_, ?_, fun key hkey => ?_, fun _ => at?_updated stored, hpresent⟩
    · rw [if_neg hnone]
      exact hwatches.calls
    · rw [hwatches.objects]
      exact (Entries.get?_insert _ _ _ _).trans
        ((if_pos rfl).trans (congrArg some (hpatched hnone)))
    · rw [hwatches.objects]
      exact (Entries.get?_insert _ _ _ _).trans (if_neg hkey)

/-- `patch` and `save` touch nothing in a builder but what they are asked to change: `changes` are the
values of the request that are not empty, and `pending` those of them that are not observed
already. -/
theorem perform_update {i : Invocation} {request : Command.ChangeRequest}
    (hcommand : i.command.Updates type ns name request)
    (htype : type = .builder ∨ type = .clusterBuilder) (hdry : i.mode.dryRun = false)
    {out err : Sink} {router : Router}
    (hrouter : Router.ofMode i.mode .standard out err = .ok router)
    {files : Files} {changes : Builder.Changes} (hread : request.read files = .ok changes)
    {store : MemoryStore} (hfaults : store.faults = []) {stored : Json}
    (hget : Entries.get? store.objects (.ofLocation type ns name) = some stored)
    (hw : stored.WellFormed) {observed : Resource}
    (ho : Resource.ofJson (some type) stored = .ok observed) (hname : observed.name = name)
    (interrupt : Option Nat) :
    request.Reads files changes ∧
      (∀ p, p ∈ changes.pending observed ↔ request.Asks files p ∧
        (observed.document.at? ("spec" :: p.1 :: p.2.1)).map canon ≠ some p.2.2.canon) ∧
      Updated type ns name stored (changes.pending observed) store
        (i.perform files interrupt out err store).store := by
  have hc := Command.settable_of_read hread
  have hpresent := isSome_at?_updated htype hw ho hc (changes.pending_sublist observed)
  have hpatched := patched_specPatch htype hw ho (hc.sublist (changes.pending_sublist observed))
  subst hname
  let s : Settings := { mode := i.mode, patience := ⟨i.timeout, interrupt⟩ }
  obtain ⟨u, hu, -, hrun⟩ := Command.run_update hcommand hread
    (w := { store := store, router := router }) hfaults hget ho s
  -- The invocation does what `Engine.patch` does once the builder is got.
  have hstore : (i.perform files interrupt out err store).store =
      ((Engine.patch s type ns observed (changes.apply observed)).run u).2.store := by
    rw [← hrun]
    simp only [perform, Action.perform, hrouter]
    rfl
  refine ⟨Command.ChangeRequest.read_eq_ok_iff.1 hread, fun p => ?_,
    .of_watches hu hget hpatched hpresent ?_⟩
  · rw [Changes.mem_pending_iff, Command.mem_places_iff hread]
  · -- Asking for the builder plans no fault, and leaves the builder as it is
    rw [hstore]
    exact watches_patch htype hw ho hc rfl hdry ns (by rw [hu]; exact hfaults)
      (by rw [hu]; exact hget)

/-- A tag that is there already is not submitted; of the stack, the model does not know the zone. -/
theorem perform_update_save :
    let stored : Json := .obj [("metadata", .obj [("generation", .num (.int 2)),
        ("name", .str "base")]),
      ("spec", .obj [("notes", .null), ("stack", .obj [("name", .str "tiny"), ("zone", .str "a")]),
        ("tag", .str "r/base")])]
    let observed : Resource := ⟨some .builder, .obj [("metadata", .obj
        [("generation", .num (.int 2)), ("name", .str "base")]),
      ("spec", .obj [("stack", .obj [("name", .str "tiny")]), ("store", .obj []),
        ("tag", .str "r/base")])]⟩
    let request : Command.ChangeRequest :=
      { tag := some "r/base", stack := some "full", store := some "" }
    let changes : Builder.Changes := { tag := some "r/base", stack := some "full" }
    let i : Invocation := ⟨.save (.here "default") none "base" request, {}, .ofSeconds 600⟩
    let store : MemoryStore := { objects := [(.ofLocation .builder none "base", stored)] }
    request.read default = .ok changes ∧ request.Reads default changes ∧
      changes.pending observed = [("stack", ["name"], .str "full")] ∧
      Updated .builder none "base" stored (changes.pending observed) store
        (i.perform default none {} {} store).store := by
  intro stored observed request changes i store
  have hupdate : request.Reads default changes ∧ _ ∧ Updated .builder none "base" stored
      (changes.pending observed) store (i.perform default none {} {} store).store :=
    perform_update (.save (.here "default") rfl) (Or.inl rfl) rfl rfl rfl rfl rfl
      (show stored.WellFormed by decide) rfl rfl none
  obtain ⟨hreads, -, hupdated⟩ := hupdate
  exact ⟨rfl, hreads, by decide, hupdated⟩

end Invocation

end BuilderControl
