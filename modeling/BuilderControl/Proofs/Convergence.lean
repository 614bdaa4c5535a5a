import BuilderControl.Proofs.Actions
import BuilderControl.Proofs.Generation

/-!
# Stored objects become what is desired

A patch is computed from what was observed of a stored object, which is less than what is stored,
and sent to the store, which applies it to all of it and counts the generation up.  What is then
observed is what was desired, but for what the server owns.

## Key results

- `Engine.patch_converges`: this is so for objects of all build types, and everything the
  model does not know is kept
-/

namespace BuilderControl

open Json Schema Schemas MemoryStore Differ

/-- Where the generation is. -/
def generationPath : Path := [.field "metadata", .field "generation"]

/-- A stored object reads as desired, but for what the server owns: that is as it was observed,
except that the generation may be another one.  Whatever the type does not know is still stored. -/
structure Converged (type : ResourceType) (stored observed desired stored' result : Json) :
    Prop where
  reads : Resource.ofJson (some type) stored' = .ok ⟨some type, result⟩
  same : (standard.strip result).same (standard.strip desired) = true
  owned : ∀ path ∈ serverOwned, path ≠ generationPath → result.lookup path = observed.lookup path
  kept : ∀ names v, type.schema.Unknown names → stored.lookup (names.map .field) = .ok v →
    stored'.lookup (names.map .field) = .ok v

/-! ## The generation is not part of it -/

section Generation

variable {j m : Json} (hm : j.get? "metadata" = some m) (hmo : m.isObject = true) (g : Int)
include hm hmo

/-- Setting the generation leaves everything else that the server owns as it is. -/
theorem lookup_withGeneration (hobj : j.isObject = true) {path : Path} (hp : path ∈ serverOwned)
    (hne : path ≠ generationPath) : (withGeneration j g).lookup path = j.lookup path := by
  have hget := get?_withGeneration j g
  obtain ⟨names, hn, rfl⟩ := List.mem_map.1
    (show path ∈ serverOwnedFields.map (·.map .field) from hp)
  -- The status is not below the metadata, and other metadata is not the generation
  rcases eq_of_mem_serverOwnedFields names hn with rfl | ⟨k, rfl⟩
  · exact lookupFrom_congr rfl hobj ((hget "status").trans (if_neg (by simp))) [] []
  · have hk : k ≠ "generation" := fun hk => hne (hk ▸ rfl)
    have hset : (m.set "generation" (.num (.int g))).get? k = m.get? k :=
      (get?_set _ _ _ _).trans (if_neg hk)
    have hmeta : (withGeneration j g).get? "metadata" =
        some (m.set "generation" (.num (.int g))) := by
      rw [hget, if_pos rfl, hm]
      rfl
    exact (lookupFrom_cons_of_get? hmeta [] [.field k]).trans
      ((lookupFrom_congr rfl hmo hset [.field "metadata"] []).trans
        (lookupFrom_cons_of_get? hm [] [.field k]).symm)

/-- Without what the server owns, setting the generation makes no difference. -/
theorem strip_withGeneration (hj : j.WellFormed) (hobj : j.isObject = true) :
    standard.strip (withGeneration j g) = standard.strip j := by
  have hw := wellFormed_withGeneration hj g
  have hwm := hj.get? hm
  have hnumber : (Json.num (.int g)).WellFormed := trivial
  have hset := hwm.set hnumber "generation"
  refine (wellFormed_strip serverOwnedFields hw).ext (wellFormed_strip serverOwnedFields hj)
    (isObject_strip serverOwnedFields hw) ((isObject_strip serverOwnedFields hj).trans hobj)
    fun k => ?_
  rw [← standard_eq_ofFields, get?_standard_strip hw, get?_standard_strip hj, get?_withGeneration]
  split
  · rfl
  · split
    · rename_i hk
      rw [hk, hm]
      -- The generation is taken out of the metadata anyway
      refine congrArg some ((wellFormed_stripMetadata hset).ext (wellFormed_stripMetadata hwm)
        (isObject_stripMetadata hset) ((isObject_stripMetadata hwm).trans hmo) fun l => ?_)
      rw [get?_stripMetadata hset, get?_stripMetadata hwm, get?_set]
      split
      · rfl
      · rename_i hl
        exact if_neg fun heq : l = "generation" => hl (heq ▸ by decide)
    · rfl

end Generation

/-- The generation of a document is what is found at its place. -/
theorem generationOf_congr {i j : Json}
    (h : i.lookup generationPath = j.lookup generationPath) : generationOf i = generationOf j := by
  have hat : i.at? ["metadata", "generation"] = j.at? ["metadata", "generation"] :=
    Option.ext fun v => by rw [← lookup_fields, ← lookup_fields]; exact h ▸ Iff.rfl
  have heq (k : Json) :
      generationOf k = ((k.at? ["metadata", "generation"]).bind integer?).getD 0 := by
    simp [generationOf, Option.bind_assoc]
  rw [heq i, heq j, hat]

/-- A generation that was set is found at its place. -/
theorem lookup_withGeneration_generationPath (j : Json) (g : Int) :
    (withGeneration j g).lookup generationPath = .ok (.num (.int g)) := by
  rw [show generationPath = ["metadata", "generation"].map .field from rfl, lookup_fields]
  rw [at?_cons, get?_withGeneration, if_pos rfl, Option.bind_some, at?_cons, get?_set, if_pos rfl]
  rfl

/-- Names that the schema of a build type does not know do not lead to the generation. -/
theorem Schema.Unknown.at?_withGeneration {type : ResourceType} {spec : Schema}
    {names : List String} (h : (build type spec).Unknown names) (j : Json) (g : Int) :
    (withGeneration j g).at? names = j.at? names := by
  rw [build_eq] at h
  -- An unknown member is not the metadata, and in the metadata not the generation
  cases h with
  | @here _ _ _ k names _ _ hkey =>
    exact at?_withGeneration_cons (hkey (required "metadata" objectMeta)
      (by simp [buildFields])).symm j g names
  | @field _ _ _ f names hmem hu =>
    simp only [buildFields, List.append_nil, List.mem_cons, List.not_mem_nil, or_false] at hmem
    rcases hmem with rfl | rfl | rfl
    · cases hu with
      | @here _ _ _ k names _ _ hkey =>
        exact at?_withGeneration_metadata (hkey (optional "generation" (.integer .signed64))
          (by simp [objectMetaFields])).symm j g names
      | @field _ _ _ f names hmem hu =>
        refine at?_withGeneration_metadata (fun hkey => ?_) j g names
        have hgeneration : optional "generation" (.integer .signed64) ∈ objectMetaFields ++ [] := by
          simp [objectMetaFields]
        cases separate_objectMeta.distinct.eq hmem hgeneration hkey
        cases hu
    · exact at?_withGeneration_cons (by simp [Schemas.required]) j g _
    · exact at?_withGeneration_cons (by simp [Schemas.optional]) j g _

/-! ## Patched objects -/

/-- Nothing is lost by raising the generation. -/
theorem Converged.withGeneration {type : ResourceType} (ht : type.isConverging = true)
    {stored observed desired next result : Json} (hw : next.WellFormed)
    (h : Converged type stored observed desired next result) {g : Int} (hg : IsGeneration g) :
    Converged type stored observed desired (withGeneration next g) (withGeneration result g) := by
  obtain ⟨spec, hschema, -⟩ := exists_mergeable_spec ht
  obtain ⟨-, hreads⟩ := Resource.ofJson_eq_ok_iff.1 h.reads
  rw [hschema] at hreads
  obtain ⟨ms, rfl⟩ := isObject_iff.1 (isObject_of_decode_record rfl hreads)
  obtain ⟨xs, rfl⟩ := isObject_iff.1 (isObject_decode_record hreads)
  -- What is read has metadata in which the generation can be set
  obtain ⟨m, x, -, -, hx⟩ := exists_metadata_of_decode hw.sorted hreads
  have hmetadata : (Json.obj xs).get? "metadata" = some (.obj x) := hx
  have hwx : (Json.obj xs).WellFormed := Resource.wellFormed_ofJson hw h.reads
  constructor
  · exact Resource.ofJson_eq_ok_iff.2 ⟨rfl, hschema ▸ decode_withGeneration hw.sorted hreads hw hg⟩
  · rw [strip_withGeneration hmetadata rfl g hwx rfl]
    exact h.same
  · intro path hp hne
    rw [lookup_withGeneration hmetadata rfl g rfl hp hne]
    exact h.owned path hp hne
  · intro names v hn hv
    rw [lookup_fields, (hschema ▸ hn : (build type spec).Unknown names).at?_withGeneration]
    exact lookup_fields.1 (h.kept names v hn hv)

/-- Objects of build types are read from objects, as objects. -/
theorem isObject_of_ofJson {type : ResourceType} (ht : type.isConverging = true) {j : Json}
    {r : Resource} (h : Resource.ofJson (some type) j = .ok r) :
    j.isObject = true ∧ r.document.isObject = true := by
  obtain ⟨spec, hschema, -⟩ := exists_mergeable_spec ht
  obtain ⟨-, hreads⟩ := Resource.ofJson_eq_ok_iff.1 h
  rw [hschema] at hreads
  exact ⟨isObject_of_decode_record rfl hreads, Resource.isObject_document h⟩

/-- A patch leads from what was observed in a stored object to what is desired. -/
theorem converged_apply {type : ResourceType} (ht : type.isConverging = true)
    {stored observed desired : Json} (hw : stored.WellFormed)
    (hform : type.schema.inObjectForm stored = true)
    (ho : Resource.ofJson (some type) stored = .ok ⟨some type, observed⟩)
    (hd : Resource.ofJson (some type) desired = .ok ⟨some type, desired⟩)
    (hwd : desired.WellFormed) (hfree : desired.NullFree) :
    ∃ result, Converged type stored observed desired
        ((standard.diff observed desired).apply stored) result ∧
      result.lookup generationPath = observed.lookup generationPath ∧
      generationOf ((standard.diff observed desired).apply stored) = generationOf result := by
  obtain ⟨spec, hschema, hspec⟩ := exists_mergeable_spec ht
  have hwo : observed.WellFormed := Resource.wellFormed_ofJson hw ho
  obtain ⟨-, hro⟩ := Resource.ofJson_eq_ok_iff.1 ho
  obtain ⟨-, hrd⟩ := Resource.ofJson_eq_ok_iff.1 hd
  rw [hschema] at hform hro hrd
  -- All three documents are objects
  obtain ⟨ms, rfl⟩ := isObject_iff.1 (isObject_of_decode_record rfl hro)
  obtain ⟨os, rfl⟩ := isObject_iff.1 (isObject_decode_record hro)
  obtain ⟨ds, rfl⟩ := isObject_iff.1 (isObject_decode_record hrd)
  have hobserved : (build type spec).ObservedAs (.obj ms) (.obj os) := ⟨hro, hw, hform⟩
  have hdesired : (build type spec).Desirable (.obj ds) := ⟨hrd, hwd, hfree, by simp⟩
  obtain ⟨xs, hxs, hreached⟩ := exists_decode_patched_build hspec hobserved hdesired hwo
  have hnext : ((standard.diff (.obj os) (.obj ds)).apply (.obj ms)).WellFormed :=
    hw.merge (wellFormed_diff serverOwnedFields hwo hwd rfl rfl)
  have hreads : Resource.ofJson (some type) ((standard.diff (.obj os) (.obj ds)).apply (.obj ms)) =
      .ok ⟨some type, .obj xs⟩ := Resource.ofJson_eq_ok_iff.2 ⟨rfl, hschema ▸ hxs⟩
  have hreached := hreached (Resource.wellFormed_ofJson hnext hreads)
  -- The patched document is read, and so the server counts on from the same generation
  refine ⟨.obj xs, ⟨hreads, same_iff.2 hreached.same, fun path hp _ => hreached.owned path hp,
    fun names v hn hv => ?_⟩, hreached.owned _ (by decide),
    generationOf_eq_of_decode hnext.sorted hxs hnext⟩
  rw [lookup_fields] at hv ⊢
  exact at?_patched_unknown hspec hobserved hdesired hwo (hschema ▸ hn) hv

/-- The server counts on from the generation that was observed, unless that is the last one. -/
private theorem generationOf_patched {next result : Json} {observed : Resource}
    (hkept : result.lookup generationPath = observed.document.lookup generationPath)
    (hsame : generationOf next = generationOf result)
    (hgeneration : observed.generation?.getD 0 < Nat.pow 2 63 - 1) :
    generationOf next = observed.generation?.getD 0 ∧ IsGeneration (generationOf next + 1) := by
  have hcount : generationOf next = observed.generation?.getD 0 :=
    hsame.trans ((generationOf_congr hkept).trans (generationOf_eq observed))
  refine ⟨hcount, ?_⟩
  have hold := isGeneration_generationOf next
  unfold IsGeneration at hold ⊢
  omega

namespace Engine

open BuilderControl.Action

/-- After a patch that ends well, the stored object reads as desired, but for what the server owns.
Its generation has grown if the patch was submitted; if there was nothing to submit, it has not. -/
theorem patch_converges {type : ResourceType} (ht : type.isConverging = true) {s : Settings}
    (hdiffer : s.differ = .standard) (hdry : s.mode.dryRun = false)
    (hwait : s.mode.shouldWait = false) {ns : Option String} {observed desired : Resource}
    {w w' : World MemoryStore} {stored : Json}
    (hget : Entries.get? w.store.objects (.ofLocation type ns observed.name) = some stored)
    (hw : stored.WellFormed) (hform : type.schema.inObjectForm stored = true)
    (ho : Resource.ofJson (some type) stored = .ok observed)
    (hgeneration : observed.generation?.getD 0 < Nat.pow 2 63 - 1)
    (hd : Resource.ofJson (some type) desired.document = .ok desired)
    (hwd : desired.document.WellFormed) (hfree : desired.document.NullFree)
    (hrun : (patch s type ns observed desired).run w = (.ok (), w')) :
    ∃ stored' result,
      Entries.get? w'.store.objects (.ofLocation type ns observed.name) = some stored' ∧
        Converged type stored observed.document desired.document stored' result ∧
        (w'.store.calls = w.store.calls ∧
            result.lookup generationPath = observed.document.lookup generationPath ∨
          w'.store.calls = w.store.calls ++ [⟨.patch (s.differ.diff observed.document
                desired.document).toJson, type, ns, observed.name⟩] ∧
            result.lookup generationPath =
              .ok (.num (.int (observed.generation?.getD 0 + 1)))) := by
  obtain ⟨observedType, o⟩ := observed
  obtain ⟨desiredType, d⟩ := desired
  obtain ⟨rfl, -⟩ := Resource.ofJson_eq_ok_iff.1 ho
  obtain ⟨rfl, -⟩ := Resource.ofJson_eq_ok_iff.1 hd
  obtain ⟨result, hconverged, hkept, hsame⟩ := converged_apply ht hw hform ho hd hwd hfree
  rw [show w'.store = ((patch s type ns ⟨some type, o⟩ ⟨some type, d⟩).run w).2.store by rw [hrun]]
  have hdiff : s.differ.diff o d = standard.diff o d := by rw [hdiffer]
  -- An empty patch is not submitted
  cases hempty : (s.differ.diff o d).isEmpty with
  | true =>
    -- Nothing is submitted, and an empty patch would change nothing
    rw [quiet_patch type ns _ _ hempty w]
    rw [hdiff] at hempty
    rw [MergePatch.apply_of_isEmpty hempty (isObject_of_ofJson ht ho).1] at hconverged
    exact ⟨stored, result, hget, hconverged, Or.inl ⟨rfl, hkept⟩⟩
  | false =>
    -- The run ended well, so the store has accepted the patch
    obtain ⟨patched, hreply⟩ := patch_reply_of_run_ok type ns _ _ hdry hempty hrun
    have hstore := patch_store (s.differ.diff o d) (fault_eq_none_of_patch hreply) hget
    have hrest := along_patch type ns ⟨some type, o⟩ ⟨some type, d⟩ hdry hempty
      (R := fun t t' => t' = t) (fun _ => rfl) (quiet_converge hwait type ns) w
    have hnext : ((standard.diff o d).apply stored).WellFormed :=
      hw.merge (wellFormed_diff serverOwnedFields (Resource.wellFormed_ofJson hw ho) hwd
        (isObject_of_ofJson ht ho).2 (isObject_of_ofJson ht hd).2)
    obtain ⟨hcount, hnew⟩ := generationOf_patched hkept hsame hgeneration
    rw [hrest, hstore]
    simp only [hdiff]
    refine ⟨_, _, (Entries.get?_insert _ _ _ _).trans (if_pos rfl),
      hconverged.withGeneration ht hnext hnew, Or.inr ⟨rfl, ?_⟩⟩
    rw [lookup_withGeneration_generationPath, hcount]

/-- An image whose source is replaced; of its spec, the model does not know the size of the
cache. -/
theorem patch_converges_image :
    let stored : Json := .obj [("metadata", .obj [("generation", .num (.int 4)),
        ("name", .str "app"), ("uid", .str "0f6c")]),
      ("spec", .obj [("builder", .obj [("name", .str "base")]), ("cacheSize", .str "2G"),
        ("source", .obj [("git", .obj [("url", .str "a")])]), ("tag", .str "r/app")]),
      ("status", .obj [("latestImage", .str "r/app@1")])]
    let observed : Resource := ⟨some .image, .obj [("metadata", .obj
        [("generation", .num (.int 4)), ("name", .str "app"), ("uid", .str "0f6c")]),
      ("spec", .obj [("builder", .obj [("name", .str "base")]),
        ("source", .obj [("git", .obj [("url", .str "a")])]), ("tag", .str "r/app")]),
      ("status", .obj [("latestImage", .str "r/app@1")])]⟩
    let desired : Resource := ⟨some .image, .obj [("metadata", .obj [("name", .str "app")]),
      ("spec", .obj [("builder", .obj [("name", .str "tiny")]),
        ("source", .obj [("blob", .obj [("url", .str "b")])]), ("tag", .str "r/app")])]⟩
    let key := StoreKey.ofLocation .image none "app"
    let w : World MemoryStore :=
      ⟨{ objects := [(key, stored)] }, ⟨false, none, default, default, default⟩, []⟩
    let run := (patch {} .image none observed desired).run w
    run = (.ok (), run.2) ∧ ∃ stored' result,
      Entries.get? run.2.store.objects key = some stored' ∧
        Converged .image stored observed.document desired.document stored' result ∧
        result.lookup generationPath = .ok (.num (.int 5)) := by
  intro stored observed desired key w run
  have hok : run.1.isOk = true := by decide +kernel
  have hrun : run = (.ok (), run.2) := eq_ok_of_isOk hok
  have hfree : desired.document.NullFree := (nullFree_iff (by decide)).2 (by decide)
  obtain ⟨stored', result, hget, hconverged, ⟨hcalls, -⟩ | ⟨-, hgeneration⟩⟩ :=
    @patch_converges .image rfl {} rfl rfl rfl none observed desired w run.2 stored rfl
      (by decide) (by decide) rfl (by decide) rfl (by decide) hfree hrun
  · have hsubmitted : run.2.store.calls ≠ [] := by decide +kernel
    exact absurd hcalls hsubmitted
  · exact ⟨hrun, stored', result, hget, hconverged, hgeneration⟩

end Engine

end BuilderControl
