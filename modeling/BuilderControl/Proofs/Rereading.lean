import BuilderControl.Proofs.BuildTypes
import BuilderControl.Proofs.Stable

/-!
# Objects are read as they were written

An object of a known type is read again as it is.  So is one without a type, but for a kind that it
keeps without a version: taking an identity stops at a version that is no text, and what stands
behind it is left.  Read again, the kind has no version before it and is taken out.

## Key results

- `get?_assemble_keeping`: what is kept besides an identity
- `decode_untyped_again`: objects without a type are read again, less a kind that was left
- `at?_build_status`: members of a status that no field reads stay
- `Resource.ofJson_document`: objects are read as they were written
-/

namespace BuilderControl

open Json Schema

/-- A kind beside a version that is no text. -/
def Json.hasStrayKind (j : Json) : Bool :=
  (j.get? "apiVersion").any (·.text?.isNone) && (j.get? "kind").isSome

namespace Schema

/-! ## Identities and all the rest -/

/-- Members that do not belong to an identity are left. -/
private theorem takeIdentity_cons_snd {k : String} (hversion : k ≠ "apiVersion")
    (hkind : k ≠ "kind") (v : Json) (ms : List (String × Json)) (version kind : Option String) :
    (takeIdentity ((k, v) :: ms) version kind).2 = (k, v) :: (takeIdentity ms version kind).2 := by
  simp [takeIdentity, hversion, hkind]

/-- Where there is no version, a kind is taken. -/
private theorem get?_takeIdentity_of_no_version {ms : Entries String Json}
    (hs : Entries.Sorted ms) (hno : Entries.get? ms "apiVersion" = none)
    {version kind : Option String} (hk : kind = none ∨ Entries.get? ms "kind" = none)
    (k : String) :
    Entries.get? (takeIdentity ms version kind).2 k =
      if k = "kind" then none else Entries.get? ms k := by
  -- In key order; what was taken so far is in `version` and `kind`
  induction ms generalizing version kind with
  | nil => cases version <;> cases kind <;> simp [takeIdentity]
  | cons m ms ih =>
    obtain ⟨l, v⟩ := m
    have htail := hs.get?_tail
    rw [Entries.get?_cons] at hno
    have hversion : l ≠ "apiVersion" := by
      rintro rfl
      cases hno
    rw [if_neg (Ne.symm hversion)] at hno
    by_cases hkind : l = "kind"
    · subst hkind
      obtain rfl : kind = none := hk.resolve_right (by simp [Entries.get?_cons])
      rw [Entries.get?_cons]
      cases v with
      | str s =>
        refine (@ih hs.tail hno version (some s) (.inr htail)).trans ?_
        split <;> rfl
      | _ =>
        show Entries.get? ms k = _
        split
        · rename_i hk
          rw [hk, htail]
        · rfl
    · rw [Entries.get?_cons, if_neg (Ne.symm hkind)] at hk
      rw [takeIdentity_cons_snd hversion hkind, Entries.get?_cons, Entries.get?_cons,
        ih hs.tail hno hk]
      split
      · rename_i hl
        rw [if_neg (hl ▸ hkind)]
      · rfl

/-- The version comes before the kind, which is taken only if the version was. -/
private theorem get?_takeIdentity_of_version {ms : Entries String Json}
    (hs : Entries.Sorted ms) {v : Json} (hv : Entries.get? ms "apiVersion" = some v) (k : String) :
    Entries.get? (takeIdentity ms none none).2 k =
      if k = "apiVersion" ∨ (k = "kind" ∧ v.text?.isSome) then none else Entries.get? ms k := by
  induction ms with
  | nil => cases hv
  | cons m ms ih =>
    obtain ⟨l, w⟩ := m
    have htail := hs.get?_tail
    rw [Entries.get?_cons] at hv ⊢
    -- Up to the version all members are left, as the kind comes after it
    by_cases hversion : l = "apiVersion"
    · subst hversion
      rw [if_pos rfl] at hv
      cases hv
      cases w with
      | str s =>
        have hrest := @get?_takeIdentity_of_no_version ms hs.tail htail (some s) none (.inl rfl) k
        refine hrest.trans ?_
        by_cases hk : k = "apiVersion"
        · subst hk
          simp [htail]
        · simp [hk, text?]
      | _ =>
        show Entries.get? ms k = _
        by_cases hk : k = "apiVersion"
        · simp [hk, htail]
        · simp [hk, text?]
    · rw [if_neg (Ne.symm hversion)] at hv
      have hkind : l ≠ "kind" := by
        rintro rfl
        exact absurd (hs.lt_of_get? hv) (by decide)
      rw [takeIdentity_cons_snd hversion hkind, Entries.get?_cons, ih hs.tail hv]
      split
      · rename_i hl
        subst hl
        simp [hversion, hkind]
      · rfl

/-- Taking an identity leaves no version, and a kind only beside one that is no text. -/
theorem get?_takeIdentity_snd {ms : Entries String Json} (hs : Entries.Sorted ms) (k : String) :
    Entries.get? (takeIdentity ms none none).2 k =
      if k = "apiVersion" ∨ (k = "kind" ∧ (Json.obj ms).hasStrayKind = false) then none
      else Entries.get? ms k := by
  -- A kind without any version is taken and thrown away, one beside a version may stay
  cases hv : Entries.get? ms "apiVersion" with
  | none =>
    rw [get?_takeIdentity_of_no_version hs hv (.inl rfl)]
    have hstray : (Json.obj ms).hasStrayKind = false := by simp [hasStrayKind, hv]
    by_cases hversion : k = "apiVersion"
    · simp [hversion, hv]
    · simp [hversion, hstray]
  | some v =>
    rw [get?_takeIdentity_of_version hs hv]
    by_cases hversion : k = "apiVersion"
    · simp [hversion]
    by_cases hkind : k = "kind"
    · -- Where no kind was there, none is left either
      subst hkind
      cases htext : v.text? <;> cases hw : Entries.get? ms "kind" <;>
        simp [hasStrayKind, hv, htext, hw]
    · simp [hversion, hkind]

/-- Beside a stray kind there is no complete identity. -/
theorem textPair_of_hasStrayKind {ms : Entries String Json}
    (h : (Json.obj ms).hasStrayKind = true) :
    textPair (Entries.get? ms "apiVersion") (Entries.get? ms "kind") = none := by
  simp only [hasStrayKind, Bool.and_eq_true, get?_obj] at h
  cases hv : Entries.get? ms "apiVersion" with
  | none => rfl
  | some v => cases v <;> simp_all [textPair, text?]

/-- What stands under a key where an identity is kept with all other members. -/
def keptMember (ms : Entries String Json) (k : String) : Option Json :=
  let identity := textPair (Entries.get? ms "apiVersion") (Entries.get? ms "kind")
  if k = "apiVersion" then identity.map (.str ·.1)
  else if k = "kind" then
    if (Json.obj ms).hasStrayKind then Entries.get? ms "kind" else identity.map (.str ·.2)
  else Entries.get? ms k

/-- What is kept of an identity and besides it. -/
theorem get?_assemble_keeping {shape : RecordShape} (hi : shape.identified = true)
    (hk : shape.keepsRest = true) {rest : Entries String Json} (hs : Entries.Sorted rest)
    (k : String) : (assemble shape rest []).get? k = keptMember rest k := by
  have hleft : Entries.Sorted (takeIdentity rest none none).2 :=
    hs.sublist (takeIdentity_snd_sublist rest none none)
  have hget : (assemble shape rest []).get? k =
      ((textPair (Entries.get? rest "apiVersion") (Entries.get? rest "kind")).bind fun identity =>
        if k = "kind" then some (Json.str identity.2)
        else if k = "apiVersion" then some (.str identity.1) else none).or
          (Entries.get? (takeIdentity rest none none).2 k) := by
    -- The identity that was taken comes first, and then what was left
    rw [← takeIdentity_fst hs]
    simp only [assemble, hi, hk, if_true, List.append_nil, Json.object, Json.get?_obj,
      Entries.get?_ofList, List.reverse_append, Entries.get?_append]
    rw [hleft.get?_reverse]
    cases (takeIdentity rest none none).1 <;> simp [Entries.get?_cons]
  rw [hget, get?_takeIdentity_snd hs, keptMember]
  -- A stray kind is what was left, and otherwise all of the identity was taken
  cases hstray : (Json.obj rest).hasStrayKind with
  | true =>
    rw [textPair_of_hasStrayKind hstray]
    by_cases hversion : k = "apiVersion" <;> by_cases hkind : k = "kind" <;>
      simp [hversion, hkind]
  | false =>
    generalize textPair (Entries.get? rest "apiVersion") (Entries.get? rest "kind") = identity
    by_cases hversion : k = "apiVersion" <;> by_cases hkind : k = "kind" <;>
      cases identity <;> simp [hversion, hkind]

/-- A version that was kept is a text. -/
theorem hasStrayKind_kept {ms xs : Entries String Json}
    (h : Entries.get? xs "apiVersion" = keptMember ms "apiVersion") :
    (Json.obj xs).hasStrayKind = false := by
  simp only [hasStrayKind, get?_obj, h, keptMember, if_true]
  cases textPair (Entries.get? ms "apiVersion") (Entries.get? ms "kind") <;> rfl

/-- What was kept is kept again, less a kind that was left. -/
theorem keptMember_again {ms xs : Entries String Json}
    (hversion : Entries.get? xs "apiVersion" = keptMember ms "apiVersion")
    (hkind : Entries.get? xs "kind" = keptMember ms "kind") (k : String) :
    keptMember xs k =
      if k = "kind" ∧ (Json.obj ms).hasStrayKind = true then none else Entries.get? xs k := by
  have hagain := hasStrayKind_kept hversion
  simp only [keptMember, if_true, String.reduceEq, if_false] at hversion hkind
  -- Without an identity nothing is kept of it; a complete one is complete again
  cases hpair : textPair (Entries.get? ms "apiVersion") (Entries.get? ms "kind") with
  | none =>
    rw [hpair] at hversion hkind
    simp only [keptMember, hagain, hversion, Option.map_none, textPair] at hkind ⊢
    by_cases hv : k = "apiVersion"
    · simp [hv, hversion]
    · by_cases hk : k = "kind"
      · cases hstray : (Json.obj ms).hasStrayKind <;> simp [hk, hstray, hkind]
      · simp [hv, hk]
  | some identity =>
    have hstray : (Json.obj ms).hasStrayKind = false := by
      cases h : (Json.obj ms).hasStrayKind with
      | false => rfl
      | true => rw [textPair_of_hasStrayKind h] at hpair; cases hpair
    simp only [hpair, hstray, Option.map_some, Bool.false_eq_true, if_false] at hversion hkind
    simp only [keptMember, hagain, hstray, hversion, hkind, textPair]
    by_cases hv : k = "apiVersion"
    · simp [hv, hversion]
    · by_cases hk : k = "kind"
      · simp [hk, hkind]
      · simp [hv, hk]

end Schema

namespace Schemas

/-- What an object without a type is read as, besides its metadata. -/
def untypedShape : RecordShape :=
  { title := "struct DynamicObject", unique := true, identified := true, keepsRest := true }

def untypedFields : List (FieldInfo × Schema) := [defaulted "metadata" (.obj []) objectMeta]

/-- An object without a type is read as a record of its metadata. -/
theorem untyped_eq : untyped = .record untypedShape untypedFields [] := rfl

/-- The metadata is not under a key of the identity. -/
theorem separate_untyped : Separate untypedShape untypedFields [] := ⟨by decide, Or.inl rfl⟩

/-- The metadata of an object without a type is stable. -/
theorem stableField_untyped : ∀ f ∈ untypedFields ++ [], StableField f := by
  intro f hf
  have h := areStable_iff.1 (show areStable untypedFields = true by decide) f (by simpa using hf)
  exact ⟨stable_of_isStable h.2, h.1⟩

/-- Any other member is kept as an identity and all the rest are. -/
theorem get?_untyped_other {ms xs : Entries String Json} (hs : Entries.Sorted ms)
    (h : ReadsTo untypedShape untypedFields [] ms xs) {k : String} (hk : k ≠ "metadata") :
    Entries.get? xs k = keptMember ms k := by
  have hne : ∀ f ∈ untypedFields ++ [], f.1.key ≠ k := by
    simpa [untypedFields, defaulted] using hk.symm
  have hunlisted : ∀ k, k ≠ "metadata" →
      Entries.get? (unlisted untypedFields ms) k = Entries.get? ms k := by
    intro k hk
    rw [get?_unlisted, if_pos (by simpa [untypedFields, defaulted] using hk.symm)]
  rw [h.other k hne, get?_assemble_keeping rfl rfl (sorted_unlisted _ hs)]
  simp only [keptMember, hasStrayKind, get?_obj, hunlisted "apiVersion" (by decide),
    hunlisted "kind" (by decide), hunlisted k hk]
  rfl

/-- An object without a type is read again as it is, less a kind that was left. -/
theorem decode_untyped_again {ms xs : Entries String Json} (hs : Entries.Sorted ms)
    (h : untyped.decode .memory (.obj ms) = .ok (.obj xs)) :
    untyped.decode .memory (.obj xs) =
      .ok (.obj (if (Json.obj ms).hasStrayKind then Entries.erase xs "kind" else xs)) := by
  rw [untyped_eq] at h ⊢
  obtain ⟨_, heq, hxs⟩ := of_decode_record hs separate_untyped h
  cases heq
  have hfield : ∀ f ∈ untypedFields ++ [], WrittenStable f (Entries.get? xs f.1.key) :=
    fun f hf => (stableField_untyped f hf).readField _ _ (hxs.field f hf)
  obtain ⟨ys, hys, hreads⟩ := exists_decode_record hxs.sorted separate_untyped
    fun f hf => ⟨_, hfield f hf⟩
  -- Only the metadata is a field, and all else is kept as before
  rw [hys]
  have hsorted : Entries.Sorted
      (if (Json.obj ms).hasStrayKind then Entries.erase xs "kind" else xs) := by
    split
    · exact hxs.sorted.erase "kind"
    · exact hxs.sorted
  refine congrArg (Except.ok ∘ Json.obj) (hreads.sorted.ext hsorted fun k => ?_)
  have hget : Entries.get? (if (Json.obj ms).hasStrayKind then Entries.erase xs "kind" else xs) k =
      if k = "kind" ∧ (Json.obj ms).hasStrayKind = true then none else Entries.get? xs k := by
    cases (Json.obj ms).hasStrayKind <;> simp [hxs.sorted.get?_erase]
  rw [hget]
  by_cases hk : k = "metadata"
  · subst hk
    have hmem : defaulted "metadata" (.obj []) objectMeta ∈ untypedFields ++ [] := by
      simp [untypedFields]
    rw [if_neg (by simp)]
    exact Except.ok.inj ((hreads.field _ hmem).symm.trans (hfield _ hmem))
  · rw [get?_untyped_other hxs.sorted hreads hk]
    exact keptMember_again (get?_untyped_other hs hxs (by decide))
      (get?_untyped_other hs hxs (by decide)) k

/-- The status keeps what none of its fields reads. -/
theorem get?_status_other {v x : Json} (hv : v.WellFormed) (h : status.decode .memory v = .ok x)
    {k : String} (hk : k ∉ ["observedGeneration", "conditions", "latestImage"]) :
    x.get? k = v.get? k := by
  obtain ⟨vs, rfl⟩ := isObject_iff.1 (isObject_of_decode_record rfl h)
  obtain ⟨xs, rfl, hreads⟩ := of_decode_record hv.sorted ⟨by decide, Or.inl rfl⟩ h
  simp only [List.mem_cons, List.not_mem_nil, or_false, not_or] at hk
  obtain ⟨hgeneration, hconditions, himage⟩ := hk
  rw [get?_obj, get?_obj, hreads.other k
      (by simp [optional, omitted, Ne.symm hgeneration, Ne.symm hconditions, Ne.symm himage]),
    get?_assemble_of_keeps rfl rfl, (sorted_unlisted _ hv.sorted).get?_reverse, get?_unlisted,
    if_pos (by simp [optional, omitted, Ne.symm hgeneration, Ne.symm hconditions, Ne.symm himage])]

/-- An object of a build type keeps what its schema does not know of its status. -/
theorem at?_build_status {type : ResourceType} {spec : Schema} {ms xs : Entries String Json}
    (hw : (Json.obj ms).WellFormed)
    (h : (build type spec).decode .memory (.obj ms) = .ok (.obj xs)) {k : String}
    (hk : k ∉ ["observedGeneration", "conditions", "latestImage"]) :
    (Json.obj xs).at? ["status", k] = (Json.obj ms).at? ["status", k] := by
  obtain ⟨_, heq, hreads⟩ := of_decode_record hw.sorted (separate_build type spec) h
  cases heq
  have hstatus := readField_optional.1
    (hreads.field (optional "status" status) (by simp [buildFields]))
  simp only [optional] at hstatus
  simp only [at?_cons, at?_nil, get?_obj]
  rcases hstatus with ⟨hnull, hnone⟩ | ⟨v, x, hv, -, hx, hget⟩
  · -- A status that is `null` has no members either
    rw [hnone]
    cases hv : Entries.get? ms "status" with
    | none => rfl
    | some v =>
      rw [hv] at hnull
      cases hnull
      rfl
  · rw [hv, hget]
    simp only [Option.bind_some, get?_status_other (hw.member hv) hx hk]

end Schemas

/-! ## Objects -/

namespace Resource

open Schemas

variable {j : Json} {r : Resource}

/-- An object of a known type is read again as it is. -/
theorem ofJson_document_of_type {t : ResourceType} (h : ofJson (some t) j = .ok r) :
    ofJson (some t) r.document = .ok r := by
  have hstable : t.schema.Stable := stable_of_isStable (by cases t <;> decide)
  obtain ⟨htype, hread⟩ := ofJson_eq_ok_iff.1 h
  exact ofJson_eq_ok_iff.2 ⟨htype, hstable .memory Source.showsNull_memory j _ hread⟩

/-- An object that can be patched keeps what its type does not know of the status. -/
theorem at?_document_status {t : ResourceType} (ht : t.isConverging = true) (hj : j.WellFormed)
    (h : ofJson (some t) j = .ok r) {k : String}
    (hk : k ∉ ["observedGeneration", "conditions", "latestImage"]) :
    r.document.at? ["status", k] = j.at? ["status", k] := by
  obtain ⟨spec, hschema, -⟩ := exists_mergeable_spec ht
  obtain ⟨-, hread⟩ := ofJson_eq_ok_iff.1 h
  rw [hschema, build_eq] at hread
  obtain ⟨ms, rfl⟩ := isObject_iff.1 (isObject_of_decode_record rfl hread)
  obtain ⟨xs, hxs⟩ := isObject_iff.1 (isObject_decode_record hread)
  rw [hxs] at hread ⊢
  exact at?_build_status hj hread hk

/-- What an object without a type has under a key that is not the one of its metadata. -/
theorem get?_document_untyped (hj : j.WellFormed) (h : ofJson none j = .ok r) {k : String}
    (hk : k ≠ "metadata") : r.document.get? k = keptMember j.members k := by
  obtain ⟨-, hread⟩ := ofJson_ok_iff.1 h
  obtain ⟨ms, rfl⟩ := isObject_iff.1 (isObject_of_decode_record rfl hread)
  obtain ⟨xs, hxs, hreads⟩ := of_decode_record hj.sorted separate_untyped hread
  rw [hxs]
  exact get?_untyped_other hj.sorted hreads hk

/-- An object without a type is read again as it is, less a stray kind. -/
theorem ofJson_document_untyped (hj : j.WellFormed) (h : ofJson none j = .ok r) :
    ofJson none r.document = .ok ⟨none, if j.hasStrayKind then
      .obj (Entries.erase r.document.members "kind") else r.document⟩ := by
  obtain ⟨-, hread⟩ := ofJson_ok_iff.1 h
  obtain ⟨ms, rfl⟩ := isObject_iff.1 (isObject_of_decode_record rfl hread)
  obtain ⟨xs, hxs⟩ := isObject_iff.1 (isObject_decode_record hread)
  rw [hxs] at hread ⊢
  refine ofJson_ok_iff.2 ⟨rfl, (decode_untyped_again hj.sorted hread).trans ?_⟩
  split <;> rfl

/-- A kind that was left stands in a document without a version. -/
theorem document_of_hasStrayKind (hj : j.WellFormed) (h : ofJson none j = .ok r)
    (hkind : j.hasStrayKind = true) :
    r.document.get? "apiVersion" = none ∧ r.document.get? "kind" = j.get? "kind" := by
  obtain ⟨ms, rfl⟩ := isObject_iff.1 (isObject_of_decode_record rfl (ofJson_ok_iff.1 h).2)
  constructor
  · -- The version is no text, so it makes up no identity and is dropped
    rw [get?_document_untyped hj h (by decide), keptMember, if_pos rfl]
    exact congrArg (Option.map _) (textPair_of_hasStrayKind hkind)
  · rw [get?_document_untyped hj h (by decide), keptMember, if_neg (by decide), if_pos rfl]
    exact if_pos hkind

/-- No kind is left a second time. -/
theorem hasStrayKind_document (hj : j.WellFormed) (h : ofJson none j = .ok r) :
    r.document.hasStrayKind = false := by
  have hversion := get?_document_untyped hj h (k := "apiVersion") (by decide)
  obtain ⟨xs, hxs⟩ := isObject_iff.1 (isObject_ofJson h)
  rw [hxs] at hversion ⊢
  -- The version that was kept is a text, or there is none
  exact hasStrayKind_kept hversion

/-- Reading an object normalises it once and for all: its document is read again and stays what it
is, with the identity, the readiness and the members of the status that no field reads.  Only a kind
that was left beside a version that is no text is lost, and nothing after it. -/
theorem ofJson_document {type : Option ResourceType} (hj : j.WellFormed)
    (h : ofJson type j = .ok r) :
    r.document.isObject = true ∧ ∃ again, ofJson type r.document = .ok again ∧
      (¬(type = none ∧ j.hasStrayKind = true) → again.document = r.document) ∧
      (type = none → j.hasStrayKind = true →
        r.document.get? "apiVersion" = none ∧ r.document.get? "kind" = j.get? "kind" ∧
          again.document = .obj (Entries.erase r.document.members "kind") ∧
          ofJson type again.document = .ok again) ∧
      ∀ t, type = some t → t.isConverging = true →
        again.identity = r.identity ∧ again.readiness = r.readiness ∧
          ∀ k, k ∉ ["observedGeneration", "conditions", "latestImage"] →
            r.document.at? ["status", k] = j.at? ["status", k] := by
  refine ⟨isObject_ofJson h, ?_⟩
  -- Only objects without a type can lose something
  cases type with
  | none =>
    have hagain := ofJson_document_untyped hj h
    refine ⟨_, hagain, fun hnot => ?_, fun _ hkind => ?_, by simp⟩
    · exact if_neg fun hkind => hnot ⟨rfl, hkind⟩
    · obtain ⟨hversion, hleft⟩ := document_of_hasStrayKind hj h hkind
      refine ⟨hversion, hleft, if_pos hkind, ?_⟩
      -- The second document has no kind to lose
      have hthird := ofJson_document_untyped (wellFormed_ofJson hj h) hagain
      rwa [hasStrayKind_document hj h] at hthird
  | some t =>
    refine ⟨r, ofJson_document_of_type h, fun _ => rfl, by simp, ?_⟩
    rintro _ ⟨⟩ hconverging
    exact ⟨rfl, rfl, fun k => at?_document_status hconverging hj h⟩

/-- A time is moved to UTC once, an absent default is filled in once, and a member of the status
that no field reads is kept. -/
theorem ofJson_document_store :
    let j : Json := .obj
      [("metadata", .obj [("creationTimestamp", .str "2024-03-01T01:30:00+02:00")]),
        ("spec", .obj []), ("status", .obj [("phase", .null)])]
    let r : Resource := ⟨some .clusterStore, .obj
      [("metadata", .obj [("creationTimestamp", .str "2024-02-29T23:30:00Z")]),
        ("spec", .obj [("sources", .arr [])]), ("status", .obj [("phase", .null)])]⟩
    j.WellFormed ∧ ofJson (some .clusterStore) j = .ok r ∧ ∃ again,
      ofJson (some .clusterStore) r.document = .ok again ∧ again.document = r.document ∧
        again.readiness = r.readiness ∧ r.document.at? ["status", "phase"] = some .null := by
  intro j r
  have hj : j.WellFormed := by decide
  have h : ofJson (some .clusterStore) j = .ok r := Except.toOption_eq_some.1 (by decide +kernel)
  obtain ⟨-, again, hagain, hsame, -, hbuild⟩ := ofJson_document hj h
  obtain ⟨-, hready, hstatus⟩ := hbuild .clusterStore rfl rfl
  exact ⟨hj, h, again, hagain, hsame (by decide), hready, hstatus "phase" (by decide)⟩

/-- A kind that was left beside a version that is no text is lost when the object is read again. -/
theorem ofJson_document_ne_of_stray_kind :
    let j : Json := .obj [("apiVersion", .num (.int 1)), ("kind", .str "X")]
    let r : Resource := ⟨none, .obj [("kind", .str "X"), ("metadata", .obj [])]⟩
    j.WellFormed ∧ ofJson none j = .ok r ∧ ∃ again, ofJson none r.document = .ok again ∧
      again.document ≠ r.document := by
  intro j r
  have h : ofJson none j = .ok r := Except.toOption_eq_some.1 (by decide)
  have hagain : ofJson none r.document = .ok ⟨none, .obj [("metadata", .obj [])]⟩ :=
    Except.toOption_eq_some.1 (by decide)
  exact ⟨by decide, h, _, hagain, by decide⟩

end Resource

end BuilderControl
