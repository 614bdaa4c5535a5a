import BuilderControl.Store.Memory
import BuilderControl.Proofs.Comparison
import BuilderControl.Proofs.KeyOrder
import BuilderControl.Proofs.Mergeable

/-!
# Objects of the build types

Objects of the build types differ in their specs only.  Their metadata and status have fields that
the server owns, which a patch is silent about, and their identity is read only if it is complete.

## Key results

- `exists_mergeable_spec`: the specs of all build types are mergeable
- `exists_decode_metadata`: metadata after a patch
- `get?_patched_identity`: the identity after a patch
- `exists_decode_patched_build`: an object after a patch
-/

namespace BuilderControl

namespace Schemas

open Schema Json

/-! ## Specs -/

/-- Nothing below a text is unknown. -/
theorem not_unknown_text (names : List String) : ¬ Schema.text.Unknown names := by rintro ⟨⟩

/-- A text that may be absent is mergeable. -/
theorem fieldMergeable_optional_text (key : String) : FieldMergeable (optional key .text) :=
  mergeable_text.optional not_unknown_text

/-- References are mergeable, as all their fields are texts that may be absent. -/
theorem mergeable_objectReference : objectReference.Mergeable := by
  refine Mergeable.record rfl rfl (by decide) fun f hf => ?_
  simp only [List.append_nil, List.mem_cons, List.not_mem_nil, or_false] at hf
  rcases hf with rfl | rfl | rfl | rfl | rfl | rfl | rfl <;> exact fieldMergeable_optional_text _

/-- A text that is written even if it is absent. -/
theorem fieldMergeable_defaulted_text (key : String) :
    FieldMergeable (defaulted key (.str "") .text) := by
  refine mergeable_text.defaulted (by decide) (Or.inr fun d _ hd => ?_)
  obtain ⟨t, -, rfl⟩ := Except.map_ok_iff.1 hd
  exact change_eq_none_or_self _ rfl

/-- A reference that is written even if it is absent. -/
theorem fieldMergeable_defaulted_reference (key : String) :
    FieldMergeable (defaulted key (.obj []) objectReference) :=
  mergeable_objectReference.defaulted (by decide) (Or.inl ⟨by rfl, by decide⟩)

/-- A text that is not written if it is empty is mergeable. -/
theorem fieldMergeable_omitted_text (key : String) :
    FieldMergeable (omitted key (.str "") .text) :=
  mergeable_text.omitted not_unknown_text rfl fun x h => by
    cases x <;> first | exact h | cases h

/-- A list that is not written if it is empty is mergeable. -/
theorem fieldMergeable_omitted_list (key : String) (item : Schema) :
    FieldMergeable (omitted key (.arr []) (.list item)) :=
  (mergeable_list item).omitted (by rintro _ ⟨⟩) rfl fun x h => by
    cases x with
    | arr items => cases items <;> first | rfl | cases h
    | _ => cases h

/-- The fields that both types of builders have are mergeable. -/
theorem fieldMergeable_builderFields : ∀ f ∈ builderFields, FieldMergeable f := by
  intro f hf
  simp only [builderFields, List.mem_cons, List.not_mem_nil, or_false] at hf
  rcases hf with rfl | rfl | rfl | rfl
  · exact fieldMergeable_defaulted_text "tag"
  · exact fieldMergeable_defaulted_reference "stack"
  · exact fieldMergeable_defaulted_reference "store"
  · exact fieldMergeable_omitted_list "order" orderEntry

/-- Specs of cluster builders are mergeable. -/
theorem mergeable_clusterBuilderSpec : clusterBuilderSpec.Mergeable := by
  refine Mergeable.record rfl rfl (by decide) fun f hf => ?_
  -- The fields of this type, then those that it shares
  rcases List.mem_append.1 hf with hf | hf
  · cases List.mem_singleton.1 hf
    exact fieldMergeable_defaulted_reference "serviceAccountRef"
  · exact fieldMergeable_builderFields f hf

/-- Specs of builders in a namespace are mergeable. -/
theorem mergeable_builderSpec : builderSpec.Mergeable := by
  refine Mergeable.record rfl rfl (by decide) fun f hf => ?_
  rcases List.mem_append.1 hf with hf | hf
  · cases List.mem_singleton.1 hf
    exact fieldMergeable_omitted_text "serviceAccount"
  · exact fieldMergeable_builderFields f hf

/-- Specs of images are mergeable; their source is of any form, and is written if it is not `null`.
-/
theorem mergeable_imageSpec : imageSpec.Mergeable := by
  refine Mergeable.record rfl rfl (by decide) fun f hf => ?_
  simp only [List.append_nil, List.mem_cons, List.not_mem_nil, or_false] at hf
  rcases hf with rfl | rfl | rfl | rfl
  · exact fieldMergeable_defaulted_text "tag"
  · exact fieldMergeable_defaulted_reference "builder"
  · exact fieldMergeable_omitted_text "serviceAccount"
  · exact mergeable_anything.omitted (by rintro _ ⟨⟩) rfl fun x h => by
      cases x <;> first | rfl | cases h

/-- The image of a stack has a single field, so a different one is taken as a whole. -/
theorem fieldMergeable_stackImage (key : String) :
    FieldMergeable (defaulted key noImage stackImage) := by
  have hseparate : Separate { title := "struct StackImage", positional := true, unique := true }
      [required "image" .text] [] := ⟨by decide, Or.inl rfl⟩
  have himage : stackImage.Mergeable := by
    refine Mergeable.record rfl rfl hseparate.distinct fun f hf => ?_
    simp only [List.append_nil, List.mem_singleton] at hf
    subst hf
    exact mergeable_text.required
  refine himage.defaulted (by decide) (Or.inr fun d hw hd => ?_)
  obtain ⟨ds, rfl⟩ := isObject_iff.1 (isObject_decode_record hd)
  obtain ⟨_, heq, hreads⟩ := of_decode_record hw.sorted hseparate hd
  cases heq
  obtain ⟨t, ht⟩ : ∃ t, Entries.get? ds "image" = some (.str t) := by
    obtain ⟨v, x, -, hx, hget⟩ := readField_required.1 (hreads.field _ List.mem_cons_self)
    obtain ⟨t, -, rfl⟩ := Except.map_ok_iff.1 hx
    exact ⟨t, hget⟩
  -- The text is the only member, so two images are the same or differ in all they have
  have hds : ds = [("image", .str t)] := by
    refine hw.sorted.ext (Entries.sorted_singleton _) fun k => ?_
    rw [Entries.get?_cons]
    split
    · rename_i hk
      rw [hk, ht]
    · rename_i hk
      rw [hreads.other k (by simpa [required, eq_comm] using hk), get?_assemble_of_drops rfl rfl]
      rfl
  subst hds
  have hchange : change (some noImage) (.obj [("image", .str t)]) =
      if t = "" then none else some (.obj [("image", .str t)]) := by
    by_cases ht : t = ""
    · subst ht
      rfl
    · have hsame : (Json.str "").same (.str t) = false := by simp [same, canon, Ne.symm ht]
      -- The texts differ, so the patch has the only member there is
      rw [noImage, change_obj_obj]
      simp [difference, removals, changesOfMembers, change, unlessSame, Entries.get?_cons,
        Entries.contains, Entries.union, Entries.insert, hsame, ht]
  rw [hchange]
  split
  · exact Or.inl rfl
  · exact Or.inr rfl

/-- Specs of stacks are mergeable. -/
theorem mergeable_clusterStackSpec : clusterStackSpec.Mergeable := by
  refine Mergeable.record rfl rfl (by decide) fun f hf => ?_
  simp only [List.append_nil, List.mem_cons, List.not_mem_nil, or_false] at hf
  rcases hf with rfl | rfl | rfl
  · exact fieldMergeable_defaulted_text "id"
  · exact fieldMergeable_stackImage "buildImage"
  · exact fieldMergeable_stackImage "runImage"

/-- Specs of stores are mergeable: their only field is a list, which is replaced as a whole. -/
theorem mergeable_clusterStoreSpec : clusterStoreSpec.Mergeable := by
  refine Mergeable.record rfl rfl (by decide) fun f hf => ?_
  simp only [List.append_nil, List.mem_singleton] at hf
  subst hf
  refine (mergeable_list storeImage).defaulted (by decide) (Or.inr fun d _ hd => ?_)
  cases d with
  | arr items => exact change_eq_none_or_self _ rfl
  | _ => cases hd

/-- The schemas of the build types differ in their specs only, and these are mergeable. -/
theorem exists_mergeable_spec {type : ResourceType} (h : type.isConverging = true) :
    ∃ spec, type.schema = build type spec ∧ spec.Mergeable := by
  cases type with
  | secret | serviceAccount => cases h
  | image => exact ⟨_, rfl, mergeable_imageSpec⟩
  | builder => exact ⟨_, rfl, mergeable_builderSpec⟩
  | clusterBuilder => exact ⟨_, rfl, mergeable_clusterBuilderSpec⟩
  | clusterStack => exact ⟨_, rfl, mergeable_clusterStackSpec⟩
  | clusterStore => exact ⟨_, rfl, mergeable_clusterStoreSpec⟩

/-! ## Metadata -/

open Differ

/-- An instant that may be absent is mergeable. -/
theorem fieldMergeable_optional_instant (key : String) :
    FieldMergeable (optional key .instant) :=
  mergeable_instant.optional (by rintro _ ⟨⟩)

/-- A number that may be absent is mergeable. -/
theorem fieldMergeable_optional_integer (key : String) (range : IntegerRange) :
    FieldMergeable (optional key (.integer range)) :=
  (mergeable_integer range).optional (by rintro _ ⟨⟩)

/-- A list that may be absent is mergeable. -/
theorem fieldMergeable_optional_list (key : String) (item : Schema) :
    FieldMergeable (optional key (.list item)) :=
  (mergeable_list item).optional (by rintro _ ⟨⟩)

/-- A table of texts that may be absent is mergeable. -/
theorem fieldMergeable_optional_texts (key : String) :
    FieldMergeable (optional key (.table .text)) :=
  mergeable_text.table.optional (by rintro _ ⟨⟩)

/-- All fields of metadata are mergeable. -/
theorem fieldMergeable_metadata : ∀ f ∈ objectMetaFields, FieldMergeable f := by
  intro f hf
  simp only [objectMetaFields, List.mem_cons, List.not_mem_nil, or_false] at hf
  rcases hf with rfl | rfl | rfl | rfl | rfl | rfl | rfl | rfl | rfl | rfl | rfl | rfl | rfl |
    rfl | rfl
  -- Annotations and labels are tables; the server's own fields are mergeable like the others
  case inl | inr.inr.inr.inr.inr.inr.inr.inl => exact fieldMergeable_optional_texts _
  all_goals first
    | exact fieldMergeable_optional_text _
    | exact fieldMergeable_optional_instant _
    | exact fieldMergeable_optional_integer _ _
    | exact fieldMergeable_optional_list _ _

/-- The fields of metadata have distinct keys, and nothing else is kept. -/
theorem separate_objectMeta : Separate { title := "ObjectMeta" } objectMetaFields [] :=
  ⟨by decide, Or.inl rfl⟩

/-- Metadata is as it is desired, but for the fields that the server owns: these are as they were
observed. -/
structure MetadataReached (observed desired result : Json) : Prop where
  owned : ∀ k ∈ ownedMetadata, result.get? k = observed.get? k
  other : ∀ k, k ∉ ownedMetadata → (result.get? k).map canon = (desired.get? k).map canon

section Metadata

variable {raw observed desired : Json} (hraw : objectMeta.ObservedAs raw observed)
  (hdesired : objectMeta.Desirable desired) (ho : observed.WellFormed)
include hraw hdesired ho

/-- Metadata is read after a patch that is silent about what the server owns: that stays as it was
observed, and the rest becomes what is desired. -/
theorem exists_decode_metadata :
    ∃ x, decode .memory objectMeta (steered raw (stripMetadata observed) (stripMetadata desired)) =
        .ok x ∧ x.isObject = true ∧ MetadataReached observed desired x ∧
      ∀ names v, objectMeta.Unknown names → raw.at? names = some v →
        (steered raw (stripMetadata observed) (stripMetadata desired)).at? names = some v := by
  obtain ⟨ms, os, rfl, rfl⟩ := hraw.exists_obj
  obtain ⟨ds, rfl⟩ := isObject_iff.1 (isObject_decode_record hdesired.reads)
  have hwd := wellFormed_stripMetadata hdesired.wellFormed
  obtain ⟨so, hso⟩ := isObject_iff.1 ((isObject_stripMetadata ho).trans rfl)
  obtain ⟨sd, hsd⟩ := isObject_iff.1 ((isObject_stripMetadata hdesired.wellFormed).trans rfl)
  rw [hsd] at hwd
  -- What the server owns is left out on both sides, so the patch is silent about it
  obtain ⟨xs, hxs, hsorted, hget, hkeeps⟩ := exists_decode_patched rfl rfl separate_objectMeta
    ownedMetadata (sorted_difference so sd)
    (fun k => by
      rw [get?_difference so hwd.sorted, ← get?_obj so, ← get?_obj sd, ← hso, ← hsd,
        get?_stripMetadata ho, get?_stripMetadata hdesired.wellFormed]
      split <;> rfl)
    (fun f hf _ => fieldMergeable_metadata f (by simpa using hf)) hraw hdesired
  rw [hso, hsd, steered_obj]
  refine ⟨_, hxs, rfl, ⟨fun k hk => ?_, fun k hk => ?_⟩, hkeeps⟩
  · have h := hget k
    rwa [if_pos hk] at h
  · have h := hget k
    rwa [if_neg hk] at h

end Metadata

/-! ## Identities -/

section Identity

variable {type : ResourceType} {spec : Schema}

/-- Fields of an object of a build type. -/
def buildFields (spec : Schema) : List (FieldInfo × Schema) :=
  [required "metadata" objectMeta, required "spec" spec, optional "status" status]

/-- What an object of a build type is read as, besides its fields. -/
def buildShape (type : ResourceType) : RecordShape :=
  { title := "struct " ++ type.name, unique := true, identified := true }

/-- An object of a build type is read as a record of its three fields. -/
theorem build_eq (type : ResourceType) (spec : Schema) :
    build type spec = .record (buildShape type) (buildFields spec) [] := rfl

/-- The fields of an object have distinct keys, and no identity is kept under any of them. -/
theorem separate_build (type : ResourceType) (spec : Schema) :
    Separate (buildShape type) (buildFields spec) [] :=
  ⟨by simp [DistinctKeys, buildFields, required, optional], Or.inl rfl⟩

/-- An object of a build type is read if its three fields are, and has them as they are read. -/
private theorem exists_decode_build {ns : Entries String Json} (hs : Entries.Sorted ns)
    {m z t : Option Json}
    (hm : readField (required "metadata" objectMeta) (Entries.get? ns "metadata") = .ok m)
    (hz : readField (required "spec" spec) (Entries.get? ns "spec") = .ok z)
    (ht : readField (optional "status" status) (Entries.get? ns "status") = .ok t) :
    ∃ xs, decode .memory (build type spec) (.obj ns) = .ok (.obj xs) ∧
      ReadsTo (buildShape type) (buildFields spec) [] ns xs ∧ Entries.get? xs "metadata" = m ∧
      Entries.get? xs "spec" = z ∧ Entries.get? xs "status" = t := by
  obtain ⟨xs, hxs, hreads⟩ := exists_decode_record hs (separate_build type spec) fun f hf => by
    simp only [buildFields, List.append_nil, List.mem_cons, List.not_mem_nil, or_false] at hf
    rcases hf with rfl | rfl | rfl
    · exact ⟨_, hm⟩
    · exact ⟨_, hz⟩
    · exact ⟨_, ht⟩
  have hfield := fun f hf => hreads.field f hf
  simp only [buildFields, List.append_nil, List.forall_mem_cons] at hfield
  obtain ⟨hmetadata, hspec, hstatus, -⟩ := hfield
  exact ⟨xs, hxs, hreads, Except.ok.inj (hmetadata.symm.trans hm),
    Except.ok.inj (hspec.symm.trans hz), Except.ok.inj (hstatus.symm.trans ht)⟩

/-- What is kept of an object of a build type besides its fields: its identity, if it is complete. -/
theorem get?_assemble_build {ms : Entries String Json} (hs : Entries.Sorted ms) (k : String) :
    (assemble (buildShape type) (unlisted (buildFields spec) ms) []).get? k =
      match textPair (Entries.get? ms "apiVersion") (Entries.get? ms "kind") with
      | some (version, kind) =>
        if k = "kind" then some (.str kind)
        else if k = "apiVersion" then some (.str version) else none
      | none => none := by
  have hkept := @get?_assemble_identified (buildShape type) rfl rfl _
    (sorted_unlisted (buildFields spec) hs) k
  -- The identity is not among the fields, so it is what the document has
  rw [get?_unlisted, get?_unlisted, if_pos (by simp [buildFields, required, optional]),
    if_pos (by simp [buildFields, required, optional])] at hkept
  exact hkept

/-- What an object of a build type has under a key that is not one of its fields. -/
theorem get?_build_other {ms xs : Entries String Json} (hs : Entries.Sorted ms)
    (h : ReadsTo (buildShape type) (buildFields spec) [] ms xs) {k : String}
    (hm : k ≠ "metadata") (hsp : k ≠ "spec") (hst : k ≠ "status") :
    Entries.get? xs k =
      match textPair (Entries.get? ms "apiVersion") (Entries.get? ms "kind") with
      | some (version, kind) =>
        if k = "kind" then some (.str kind)
        else if k = "apiVersion" then some (.str version) else none
      | none => none := by
  have hkey : ∀ f ∈ buildFields spec ++ [], f.1.key ≠ k := by
    simp [buildFields, required, optional, hm.symm, hsp.symm, hst.symm]
  exact (h.other k hkey).trans (get?_assemble_build hs k)

/-- A desired text is reached wherever what is observed is there. -/
theorem mergeMember_change_text {raw observed : Option Json} (text : String)
    (h : ∀ v, observed = some v → raw = some v) :
    mergeMember raw (changeMember observed (some (.str text))) = some (.str text) := by
  rw [changeMember_some, change_of_not_isObject observed rfl (by simp)]
  split
  · rename_i heq
    obtain ⟨v, rfl, hv⟩ := Option.map_eq_some_iff.1 heq
    cases v <;> cases hv
    exact h _ rfl
  · rw [mergeMember_some _ (by simp), merge_of_not_isObject _ rfl]

/-- What is read under the keys of an identity does not depend on what else was there. -/
theorem get?_patched_identity {ms os ds ns xs : Entries String Json} (hms : Entries.Sorted ms)
    (hds : Entries.Sorted ds) (hns : Entries.Sorted ns)
    (ho : ReadsTo (buildShape type) (buildFields spec) [] ms os)
    (hd : ReadsTo (buildShape type) (buildFields spec) [] ds ds)
    (hx : ReadsTo (buildShape type) (buildFields spec) [] ns xs)
    (hn : ∀ k, k = "apiVersion" ∨ k = "kind" → Entries.get? ns k =
      mergeMember (Entries.get? ms k) (changeMember (Entries.get? os k) (Entries.get? ds k)))
    {k : String} (hm : k ≠ "metadata") (hsp : k ≠ "spec") (hst : k ≠ "status") :
    Entries.get? xs k = Entries.get? ds k := by
  have hversion := hn "apiVersion" (Or.inl rfl)
  have hkind := hn "kind" (Or.inr rfl)
  have hov := get?_build_other hms ho (k := "apiVersion") (by simp) (by simp) (by simp)
  have hok := get?_build_other hms ho (k := "kind") (by simp) (by simp) (by simp)
  have hdv := get?_build_other hds hd (k := "apiVersion") (by simp) (by simp) (by simp)
  have hdk := get?_build_other hds hd (k := "kind") (by simp) (by simp) (by simp)
  suffices h : textPair (Entries.get? ns "apiVersion") (Entries.get? ns "kind") =
      textPair (Entries.get? ds "apiVersion") (Entries.get? ds "kind") by
    rw [get?_build_other hns hx hm hsp hst, get?_build_other hds hd hm hsp hst, h]
  rw [hversion, hkind]
  -- What is observed is there, and is a complete identity or none at all
  have hobserved : (∀ v, Entries.get? os "apiVersion" = some v →
      Entries.get? ms "apiVersion" = some v) ∧
      ∀ v, Entries.get? os "kind" = some v → Entries.get? ms "kind" = some v := by
    cases hp : textPair (Entries.get? ms "apiVersion") (Entries.get? ms "kind") with
    | none => simp [hov, hok, hp]
    | some pair =>
      obtain ⟨hv, hk⟩ := textPair_eq_some.1 hp
      rw [hp] at hov hok
      rw [hov, hok, hv, hk]
      exact ⟨fun _ h => h, fun _ h => h⟩
  -- A complete identity is desired as a whole; without one, what was observed of it goes
  cases hp : textPair (Entries.get? ds "apiVersion") (Entries.get? ds "kind") with
  | some pair =>
    obtain ⟨hv, hk⟩ := textPair_eq_some.1 hp
    rw [hv, hk, mergeMember_change_text _ hobserved.1, mergeMember_change_text _ hobserved.2]
    rfl
  | none =>
    rw [hp] at hdv hdk
    rw [hdv, hdk]
    cases hp : textPair (Entries.get? ms "apiVersion") (Entries.get? ms "kind") with
    | none =>
      rw [hp] at hov hok
      rw [hov, hok]
      exact hp
    | some pair =>
      rw [hp] at hov hok
      rw [hov, hok]
      rfl

end Identity

/-! ## Objects -/

/-- What is read of an object is what is desired, but for the fields that the server owns: these are
as they were observed. -/
structure Reached (observed desired result : Json) : Prop where
  same : (standard.strip result).canon = (standard.strip desired).canon
  owned : ∀ path ∈ serverOwned, result.lookup path = observed.lookup path

/-- Metadata that was reached is the same value as the desired one without what the server owns. -/
theorem MetadataReached.canon_eq {o d x : Json} (h : MetadataReached o d x) (hx : x.WellFormed)
    (hd : d.WellFormed) (hxo : x.isObject = true) (hdo : d.isObject = true) :
    (stripMetadata x).canon = (stripMetadata d).canon := by
  refine (wellFormed_stripMetadata hx).canon_eq (wellFormed_stripMetadata hd)
    ((isObject_stripMetadata hx).trans hxo) ((isObject_stripMetadata hd).trans hdo) fun k => ?_
  rw [get?_stripMetadata hx, get?_stripMetadata hd]
  split
  · rfl
  · rename_i hk
    exact h.other k hk

/-- What is desired is reached member by member. -/
theorem Reached.of_members {os ds xs : Entries String Json} (hd : (Json.obj ds).WellFormed)
    (hx : (Json.obj xs).WellFormed) {om dm xm : Json} (hom : Entries.get? os "metadata" = some om)
    (hdm : Entries.get? ds "metadata" = some dm) (hxm : Entries.get? xs "metadata" = some xm)
    (homo : om.isObject = true) (hdmo : dm.isObject = true) (hxmo : xm.isObject = true)
    (hmetadata : MetadataReached om dm xm)
    (hstatus : Entries.get? xs "status" = Entries.get? os "status")
    (hother : ∀ k, k ≠ "metadata" → k ≠ "status" →
      (Entries.get? xs k).map canon = (Entries.get? ds k).map canon) :
    Reached (.obj os) (.obj ds) (.obj xs) := by
  constructor
  · -- Without the fields of the server, members are compared one by one
    refine (wellFormed_strip serverOwnedFields hx).canon_eq (wellFormed_strip serverOwnedFields hd)
      (isObject_strip serverOwnedFields hx) (isObject_strip serverOwnedFields hd) fun k => ?_
    rw [← standard_eq_ofFields, get?_standard_strip hx, get?_standard_strip hd]
    split
    · rfl
    · rename_i hstat
      split
      · rename_i hk
        subst hk
        rw [get?_obj, get?_obj, hxm, hdm]
        -- The metadata is compared without what the server owns of it
        exact congrArg some (hmetadata.canon_eq (hx.member hxm) (hd.member hdm) hxmo hdmo)
      · rename_i hk
        exact hother k hk hstat
  · -- A field of the server is the status, or a member of the metadata
    intro path hpath
    obtain ⟨names, hn, rfl⟩ := List.mem_map.1
      (show path ∈ serverOwnedFields.map (·.map .field) from hpath)
    rcases eq_of_mem_serverOwnedFields names hn with rfl | ⟨k, rfl⟩
    · exact lookupFrom_congr (i := .obj xs) (j := .obj os) rfl rfl hstatus [] []
    · have hk : k ∈ ownedMetadata := by simpa [serverOwnedFields, ownedMetadata] using hn
      exact (lookupFrom_cons_of_get? (j := .obj xs) hxm [] [.field k]).trans
        ((lookupFrom_congr hxmo homo (hmetadata.owned k hk) [.field "metadata"] []).trans
          (lookupFrom_cons_of_get? (j := .obj os) hom [] [.field k]).symm)

section Build

variable {type : ResourceType} {spec : Schema} (hspec : spec.Mergeable)
  {ms os ds : Entries String Json} (hraw : (build type spec).ObservedAs (.obj ms) (.obj os))
  (hdesired : (build type spec).Desirable (.obj ds)) (ho : (Json.obj os).WellFormed)
include hraw hdesired ho

/-- A member of a stored object after the patch. -/
theorem get?_patched_build (k : String) :
    ((standard.diff (.obj os) (.obj ds)).apply (.obj ms)).get? k =
      mergeMember (Entries.get? ms k)
        (if k = "status" then none
        else if k = "metadata" then changeMember ((Entries.get? os k).map stripMetadata)
          ((Entries.get? ds k).map stripMetadata)
        else changeMember (Entries.get? os k) (Entries.get? ds k)) := by
  have hd := hdesired.wellFormed
  have hpatch : (standard.diff (.obj os) (.obj ds)).toJson.WellFormed :=
    wellFormed_diff serverOwnedFields ho hd rfl rfl
  rw [← get?_obj os, ← get?_obj ds, ← get?_standard_diff ho hd rfl rfl]
  exact get?_merge hraw.wellFormed hpatch.sorted k

omit ho in
/-- The metadata of a stored object, what is observed of it and what is desired of it. -/
theorem exists_metadata : ∃ raw observed desired,
    Entries.get? ms "metadata" = some raw ∧ Entries.get? os "metadata" = some observed ∧
      Entries.get? ds "metadata" = some desired ∧
      objectMeta.ObservedAs raw observed ∧ objectMeta.Desirable desired := by
  -- The field has to be there, so it is on all three sides
  have hmem : required "metadata" objectMeta ∈ buildFields spec ++ [] := by simp [buildFields]
  have hf := hraw.field (separate_build type spec) hmem
  have hd := hdesired.field (separate_build type spec) hmem
  obtain ⟨raw, observed, hm, hdecode, ho⟩ := readField_required.1 hf.reads
  obtain ⟨desired, _, hdm, hddecode, heq⟩ := readField_required.1 hd.reads
  obtain ⟨hfree, hnull⟩ := hd.nullFree desired hdm
  cases hdm.symm.trans heq
  exact ⟨raw, observed, desired, hm, ho, hdm, ⟨hdecode, hf.wellFormed raw hm,
    hf.inObjectForm raw hm⟩, ⟨hddecode, hd.wellFormed desired hdm, hfree, hnull⟩⟩

/-- The metadata after the patch. -/
theorem exists_patched_metadata : ∃ om dm xm,
    Entries.get? os "metadata" = some om ∧ Entries.get? ds "metadata" = some dm ∧
      om.isObject = true ∧ dm.isObject = true ∧ xm.isObject = true ∧ MetadataReached om dm xm ∧
      readField (required "metadata" objectMeta)
          (((standard.diff (.obj os) (.obj ds)).apply (.obj ms)).get? "metadata") = .ok (some xm) ∧
      ∀ names v, objectMeta.Unknown names → (Json.obj ms).at? ("metadata" :: names) = some v →
        ((standard.diff (.obj os) (.obj ds)).apply (.obj ms)).at? ("metadata" :: names) =
          some v := by
  obtain ⟨mm, om, dm, hmm, hom, hdm, hraw', hdesired'⟩ := exists_metadata hraw hdesired
  obtain ⟨xm, hxm, hxmo, hreached, hkeeps⟩ :=
    exists_decode_metadata hraw' hdesired' (ho.member hom)
  -- Metadata stays an object without what the server owns, so it is not removed
  have hnull : stripMetadata dm ≠ .null := fun hnull => by
    have hobj := isObject_stripMetadata hdesired'.wellFormed
    rw [hnull, isObject_decode_record hdesired'.reads] at hobj
    cases hobj
  -- Both sides have metadata, so the patch goes into it
  have hget : ((standard.diff (.obj os) (.obj ds)).apply (.obj ms)).get? "metadata" =
      some (steered mm (stripMetadata om) (stripMetadata dm)) := by
    rw [get?_patched_build hraw hdesired ho, if_neg (by simp), if_pos rfl, hmm, hom, hdm,
      Option.map_some, Option.map_some, changeMember_some, mergeMember_change_some mm hnull]
  refine ⟨om, dm, xm, hom, hdm, isObject_decode_record hraw'.reads,
    isObject_decode_record hdesired'.reads, hxmo, hreached,
    readField_required.2 ⟨_, xm, hget, hxm, rfl⟩, fun names v hn hv => ?_⟩
  rw [at?_cons, get?_obj, hmm] at hv
  rw [at?_cons, hget]
  exact hkeeps names v hn hv

/-- The status after the patch is the one before. -/
theorem get?_patched_status :
    ((standard.diff (.obj os) (.obj ds)).apply (.obj ms)).get? "status" =
      Entries.get? ms "status" := by
  rw [get?_patched_build hraw hdesired ho, if_pos rfl, mergeMember_none]

/-- Any other member after the patch is changed as it would be alone. -/
theorem get?_patched_other {k : String} (hm : k ≠ "metadata") (hst : k ≠ "status") :
    ((standard.diff (.obj os) (.obj ds)).apply (.obj ms)).get? k =
      mergeMember (Entries.get? ms k) (changeMember (Entries.get? os k) (Entries.get? ds k)) := by
  rw [get?_patched_build hraw hdesired ho, if_neg hst, if_neg hm]

include hspec

/-- The spec after the patch. -/
theorem arrives_patched_spec : FieldArrives (required "spec" spec) (Entries.get? ms "spec")
    (((standard.diff (.obj os) (.obj ds)).apply (.obj ms)).get? "spec")
    (Entries.get? ds "spec") := by
  have hmem : required "spec" spec ∈ buildFields spec ++ [] := by simp [buildFields]
  have hd := separate_build type spec
  -- The spec is neither the metadata nor the status, so its patch is that of the field
  rw [get?_patched_other hraw hdesired ho (by simp) (by simp)]
  exact hspec.required (hraw.field hd hmem) (hdesired.field hd hmem)

/-- What a build type does not know is kept. -/
theorem at?_patched_unknown {names : List String} {v : Json}
    (hn : (build type spec).Unknown names) (hv : (Json.obj ms).at? names = some v) :
    ((standard.diff (.obj os) (.obj ds)).apply (.obj ms)).at? names = some v := by
  have hd := separate_build type spec
  obtain ⟨_, heq, hos⟩ := of_decode_record hraw.wellFormed.sorted hd hraw.reads
  cases heq
  obtain ⟨_, heq, hds⟩ := of_decode_record hdesired.wellFormed.sorted hd hdesired.reads
  cases heq
  cases hn with
  | @here _ _ _ k names hidentity _ hkey =>
    -- Neither side has a member that no field reads, so the patch is silent about it
    obtain ⟨hversion, hkind⟩ := hidentity rfl
    simp only [List.append_nil, List.forall_mem_cons, required, optional] at hkey
    obtain ⟨hm, hs, hst, -⟩ := hkey
    have hnone : ∀ {ms xs}, Entries.Sorted ms →
        ReadsTo (buildShape type) (buildFields spec) [] ms xs → Entries.get? xs k = none := by
      intro ms xs hms h
      rw [get?_build_other hms h hm.symm hs.symm hst.symm]
      split
      · rw [if_neg hkind, if_neg hversion]
      · rfl
    rw [at?_cons, get?_patched_other hraw hdesired ho hm.symm hst.symm,
      hnone hraw.wellFormed.sorted hos, hnone hdesired.wellFormed.sorted hds]
    exact hv
  -- Below a field, the field keeps it; and the status is not touched
  | @field _ _ _ f names hmem hu =>
    simp only [List.append_nil, List.mem_cons, List.not_mem_nil, or_false] at hmem
    rcases hmem with rfl | rfl | rfl
    · obtain ⟨_, _, _, -, -, -, -, -, -, -, hkeeps⟩ := exists_patched_metadata hraw hdesired ho
      exact hkeeps names v hu hv
    · exact (arrives_patched_spec hspec hraw hdesired ho).keeps names v hu hv
    · exact (congrArg (·.bind (·.at? names)) (get?_patched_status hraw hdesired ho)).trans hv

/-- A stored object is read after the patch from what was observed in it to what is desired. -/
theorem exists_decode_patched_build :
    ∃ xs, decode .memory (build type spec)
        ((standard.diff (.obj os) (.obj ds)).apply (.obj ms)) = .ok (.obj xs) ∧
      ((Json.obj xs).WellFormed → Reached (.obj os) (.obj ds) (.obj xs)) := by
  have hd := separate_build type spec
  obtain ⟨_, heq, hos⟩ := of_decode_record hraw.wellFormed.sorted hd hraw.reads
  cases heq
  obtain ⟨_, heq, hds⟩ := of_decode_record hdesired.wellFormed.sorted hd hdesired.reads
  cases heq
  obtain ⟨om, dm, xm, hom, hdm, homo, hdmo, hxmo, hreached, hmetadata, -⟩ :=
    exists_patched_metadata hraw hdesired ho
  obtain ⟨z, hz, hzcanon⟩ := (arrives_patched_spec hspec hraw hdesired ho).reads
  have hstatus : readField (optional "status" status)
      (((standard.diff (.obj os) (.obj ds)).apply (.obj ms)).get? "status") =
        .ok (Entries.get? os "status") := by
    rw [get?_patched_status hraw hdesired ho]
    exact hos.field (optional "status" status) (by simp [buildFields])
  obtain ⟨ns, hns, hsorted⟩ : ∃ ns,
      (standard.diff (.obj os) (.obj ds)).apply (.obj ms) = .obj ns ∧ Entries.Sorted ns :=
    ⟨_, rfl, sorted_mergeMembers hraw.wellFormed.sorted⟩
  have hother : ∀ {k}, k ≠ "metadata" → k ≠ "status" → Entries.get? ns k = mergeMember
      (Entries.get? ms k) (changeMember (Entries.get? os k) (Entries.get? ds k)) := by
    intro k hm hst
    rw [← get?_patched_other hraw hdesired ho hm hst, hns, get?_obj]
  -- All three fields are read, and so is the object
  rw [hns] at hmetadata hz hstatus ⊢
  obtain ⟨xs, hxs, hreads, hxsMetadata, hxsSpec, hxsStatus⟩ :=
    exists_decode_build hsorted hmetadata hz hstatus
  refine ⟨xs, hxs, fun hwx => Reached.of_members hdesired.wellFormed hwx hom hdm hxsMetadata homo
    hdmo hxmo hreached hxsStatus fun k hm hst => ?_⟩
  -- All that is left is the spec and the identity
  by_cases hs : k = "spec"
  · subst hs
    rw [hxsSpec]
    exact hzcanon
  · rw [get?_patched_identity hraw.wellFormed.sorted hdesired.wellFormed.sorted hsorted hos hds
      hreads (fun k hk => ?_) hm hs hst]
    rcases hk with rfl | rfl <;> exact hother (by simp) (by simp)

end Build

end Schemas

end BuilderControl
