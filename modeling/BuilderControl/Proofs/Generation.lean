import BuilderControl.Proofs.BuildTypes

/-!
# Generations of stored objects

A store in memory numbers the versions of an object by its `metadata.generation`.  The number can
be set in the stored document or in what is read from it.

## Key results

- `Schemas.decode_withGeneration`: setting the generation before or after reading is the same
- `Schemas.generationOf_eq_of_decode`: reading keeps the generation
- `Schemas.isGeneration_of_decode`: generations are integers of 64 bits
- `Resource.name_eq_of_ofJson`: reading keeps the name
-/

namespace BuilderControl

open Json

/-! ## Generations -/

/-- Integers that a generation may be. -/
def IsGeneration (g : Int) : Prop := -(Nat.pow 2 63) ≤ g ∧ g < Nat.pow 2 63

instance (g : Int) : Decidable (IsGeneration g) :=
  inferInstanceAs (Decidable (-(Nat.pow 2 63) ≤ g ∧ g < Nat.pow 2 63))

/-- An integer that a document holds is in the range of generations. -/
theorem Json.isGeneration_of_integer? {j : Json} {g : Int} (h : j.integer? = some g) :
    IsGeneration g := by
  cases j with
  | num n =>
    cases n with
    | int i =>
      simp only [integer?] at h
      split at h
      · rename_i hi
        cases h
        exact hi
      · cases h
    | float _ => cases h
  | _ => cases h

/-- The generation of an object is that of its metadata, if it is an integer. -/
theorem Resource.generation?_eq (r : Resource) :
    r.generation? = ((r.document.get? "metadata").bind (·.get? "generation")).bind integer? := by
  simp only [generation?, metadata]
  cases r.document.get? "metadata" <;> rfl

namespace MemoryStore

/-- The store counts on from the generation that the object states, or from zero. -/
theorem generationOf_eq (r : Resource) : generationOf r.document = r.generation?.getD 0 := by
  rw [Resource.generation?_eq]
  rfl

/-- What the store counts on from is in the range of generations. -/
theorem isGeneration_generationOf (j : Json) : IsGeneration (generationOf j) := by
  simp only [generationOf]
  cases h : ((j.get? "metadata").bind (·.get? "generation")).bind integer? with
  | none => decide
  | some g =>
    obtain ⟨v, -, hv⟩ := Option.bind_eq_some_iff.1 h
    exact isGeneration_of_integer? hv

/-- Setting the generation changes the metadata only, and makes it if there is none. -/
theorem get?_withGeneration (j : Json) (g : Int) (k : String) :
    (withGeneration j g).get? k = if k = "metadata" then
      some ((Json.ofOption (j.get? "metadata")).set "generation" (.num (.int g)))
    else j.get? k :=
  get?_set j "metadata" _ k

/-- The generation that was set is the one that is found. -/
theorem generationOf_withGeneration (j : Json) {g : Int} (hg : IsGeneration g) :
    generationOf (withGeneration j g) = g := by
  rw [generationOf, get?_withGeneration, if_pos rfl, Option.bind_some, get?_set, if_pos rfl]
  exact congrArg (fun g : Option Int => g.getD 0) (if_pos hg)

/-- Setting the generation keeps a document well-formed. -/
theorem wellFormed_withGeneration {j : Json} (h : j.WellFormed) (g : Int) :
    (withGeneration j g).WellFormed := by
  have hnumber : (Json.num (.int g)).WellFormed := trivial
  refine h.set (WellFormed.set ?_ hnumber "generation") "metadata"
  cases hm : j.get? "metadata" with
  | none => trivial
  | some m => exact h.get? hm

/-- Nothing outside of the metadata is changed by setting the generation. -/
theorem at?_withGeneration_cons {k : String} (hk : k ≠ "metadata") (j : Json) (g : Int)
    (names : List String) : (withGeneration j g).at? (k :: names) = j.at? (k :: names) := by
  rw [at?_cons, at?_cons, get?_withGeneration, if_neg hk]

/-- Nothing else in the metadata is changed by setting the generation. -/
theorem at?_withGeneration_metadata {k : String} (hk : k ≠ "generation") (j : Json) (g : Int)
    (names : List String) :
    (withGeneration j g).at? ("metadata" :: k :: names) = j.at? ("metadata" :: k :: names) := by
  rw [at?_cons, at?_cons, get?_withGeneration, if_pos rfl, Option.bind_some, at?_cons, get?_set,
    if_neg hk]
  cases j.get? "metadata" <;> rfl

end MemoryStore

namespace Schemas

open Schema MemoryStore

/-- Reading keeps an integer that may be absent. -/
theorem readField_integer {key : String} {range : IntegerRange} {raw w : Option Json}
    (h : readField (optional key (.integer range)) raw = .ok w) :
    raw.bind integer? = w.bind integer? := by
  -- The field is absent or `null` on both sides, or an integer on both
  rcases readField_optional.1 h with ⟨hnull, rfl⟩ | ⟨v, x, rfl, -, hx, rfl⟩
  · cases raw with
    | none => rfl
    | some v => rw [show v = .null from hnull]; rfl
  · simp only [decode, decodeInteger] at hx
    cases v with
    | num n =>
      cases n with
      | int i =>
        simp only [Source.memory] at hx
        split at hx <;> cases hx
        rfl
      | float _ => cases hx
    | _ => cases hx

section Build

variable {type : ResourceType} {spec : Schema} {ms xs : Entries String Json}
  (hs : Entries.Sorted ms) (h : decode .memory (build type spec) (.obj ms) = .ok (.obj xs))
include hs h

/-- The metadata that is read, and what it is read from. -/
theorem exists_metadata_of_decode : ∃ m x, Entries.get? ms "metadata" = some (.obj m) ∧
    decode .memory objectMeta (.obj m) = .ok (.obj x) ∧
    Entries.get? xs "metadata" = some (.obj x) := by
  obtain ⟨_, heq, hreads⟩ := of_decode_record hs (separate_build type spec) h
  cases heq
  obtain ⟨v, x, hv, hx, hget⟩ := readField_required.1
    (hreads.field (required "metadata" objectMeta) (by simp [buildFields]))
  obtain ⟨m, rfl⟩ := isObject_iff.1 (isObject_of_decode_record rfl hx)
  obtain ⟨x, rfl⟩ := isObject_iff.1 (isObject_decode_record hx)
  exact ⟨m, x, hv, hx, hget⟩

/-- Reading keeps the generation. -/
theorem generationOf_eq_of_decode (hw : (Json.obj ms).WellFormed) :
    generationOf (.obj ms) = generationOf (.obj xs) := by
  obtain ⟨m, x, hm, hx, hget⟩ := exists_metadata_of_decode hs h
  obtain ⟨_, heq, hreads⟩ := of_decode_record (hw.member hm).sorted separate_objectMeta hx
  cases heq
  -- The generation is a field of the metadata, and no more is looked at
  have hgeneration := readField_integer (hreads.field (optional "generation" (.integer .signed64))
    (by simp [objectMetaFields]))
  simp only [generationOf, get?_obj, hm, hget, Option.bind_some]
  exact congrArg (·.getD 0) hgeneration

/-- Setting the generation before or after reading is the same. -/
theorem decode_withGeneration (hw : (Json.obj ms).WellFormed) {g : Int} (hg : IsGeneration g) :
    decode .memory (build type spec) (withGeneration (.obj ms) g) =
      .ok (withGeneration (.obj xs) g) := by
  obtain ⟨m, x, hm, hx, hget⟩ := exists_metadata_of_decode hs h
  have hnumber : decode .memory (.integer .signed64) (.num (.int g)) = .ok (.num (.int g)) :=
    if_pos ⟨hg.1, Int.le_sub_one_of_lt hg.2⟩
  have hmetadata : decode .memory objectMeta
      (.obj (Entries.insert m "generation" (.num (.int g)))) =
        .ok (.obj (Entries.insert x "generation" (.num (.int g)))) :=
    decode_record_insert (hw.member hm).sorted separate_objectMeta hx
      (f := optional "generation" (.integer .signed64)) (by simp [objectMetaFields])
      (readField_optional.2 (Or.inr ⟨_, _, rfl, by simp, hnumber, rfl⟩))
  -- The metadata is read with the generation in it, and the object with this metadata
  have hinsert := decode_record_insert hs (separate_build type spec) h
    (f := required "metadata" objectMeta) (by simp [buildFields])
    (readField_required.2 ⟨_, _, rfl, hmetadata, rfl⟩)
  simp only [withGeneration, get?_obj, hm, hget]
  exact hinsert

end Build

/-- A generation that is read is one. -/
theorem isGeneration_of_decode {type : ResourceType} {spec : Schema} {j x : Json} {g : Int}
    (hw : j.WellFormed) (h : decode .memory (build type spec) (withGeneration j g) = .ok x) :
    IsGeneration g := by
  have hw' := wellFormed_withGeneration hw g
  obtain ⟨xs, rfl⟩ := isObject_iff.1 (isObject_decode_record h)
  obtain ⟨m, y, hm, hy, -⟩ := exists_metadata_of_decode hw'.sorted h
  obtain ⟨_, heq, hreads⟩ := of_decode_record (hw'.member hm).sorted separate_objectMeta hy
  cases heq
  -- The generation that was set is what the field is read from
  have hgeneration : Entries.get? m "generation" = some (.num (.int g)) := by
    have hset := (get?_withGeneration j g "metadata").symm.trans hm
    rw [if_pos rfl] at hset
    rw [← get?_obj, ← Option.some.inj hset, get?_set, if_pos rfl]
  have hread := hreads.field (optional "generation" (.integer .signed64))
    (by simp [objectMetaFields])
  rcases readField_optional.1 hread with ⟨hnull, -⟩ | ⟨v, n, hv, -, hn, -⟩
  · cases (congrArg (·.getD .null) hgeneration).symm.trans hnull
  · cases hgeneration.symm.trans hv
    -- Only integers in the range of generations are read
    have hdecode : (if IntegerRange.signed64.low ≤ g ∧ g ≤ IntegerRange.signed64.high then
        .ok (.num (.int g)) else .error ⟨.wrongValue (.integer g) "i64", none⟩) =
          (.ok n : Except DecodeError Json) := hn
    split at hdecode
    · rename_i hrange
      exact ⟨hrange.1, Int.lt_of_le_sub_one hrange.2⟩
    · cases hdecode

/-! ## Names -/

/-- Metadata is read with its name. -/
theorem get?_name_of_decode {m x : Entries String Json} (hs : Entries.Sorted m)
    (h : decode .memory objectMeta (.obj m) = .ok (.obj x)) {name : String}
    (hname : Entries.get? m "name" = some (.str name)) :
    Entries.get? x "name" = some (.str name) := by
  obtain ⟨_, heq, hreads⟩ := of_decode_record hs separate_objectMeta h
  cases heq
  rcases readField_optional.1 (hreads.field (optional "name" .text)
    (by simp [objectMetaFields])) with ⟨hnull, -⟩ | ⟨v, n, hv, -, hn, hwritten⟩
  · cases (congrArg (·.getD .null) hname).symm.trans hnull
  · cases hname.symm.trans hv
    cases hn
    exact hwritten

/-- Objects of every type have metadata, which is read if it is an object. -/
theorem exists_metadata_field (type : ResourceType) :
    ∃ shape own f, type.schema = .record shape own [] ∧ Separate shape own [] ∧ f ∈ own ++ [] ∧
      f.1.key = "metadata" ∧ ∀ m w, readField f (some (.obj m)) = .ok w →
        ∃ x, decode .memory objectMeta (.obj m) = .ok x ∧ w = some x := by
  -- Core types do without metadata if there is none, build types do not
  have hcore : ∀ fields, type.schema = core type fields →
      DistinctKeys ((⟨"apiVersion", .fixed type.apiVersion⟩, .text) ::
        (⟨"kind", .fixed type.name⟩, .text) :: lenient "metadata" (.obj []) objectMeta :: fields) →
      ∃ shape own f, type.schema = .record shape own [] ∧ Separate shape own [] ∧ f ∈ own ++ [] ∧
        f.1.key = "metadata" ∧ ∀ m w, readField f (some (.obj m)) = .ok w →
          ∃ x, decode .memory objectMeta (.obj m) = .ok x ∧ w = some x :=
    fun fields hschema hd => ⟨_, _, lenient "metadata" (.obj []) objectMeta, hschema,
      ⟨by simpa using hd, Or.inl rfl⟩, by simp, rfl,
      fun m w => (readField_lenient_some (by simp)).1⟩
  have hbuild : ∀ spec, type.schema = build type spec →
      ∃ shape own f, type.schema = .record shape own [] ∧ Separate shape own [] ∧ f ∈ own ++ [] ∧
        f.1.key = "metadata" ∧ ∀ m w, readField f (some (.obj m)) = .ok w →
          ∃ x, decode .memory objectMeta (.obj m) = .ok x ∧ w = some x := by
    refine fun spec hschema => ⟨_, _, required "metadata" objectMeta, hschema,
      separate_build type spec, by simp, rfl, fun m w hread => ?_⟩
    obtain ⟨_, x, hv, hx, hw⟩ := readField_required.1 hread
    cases hv
    exact ⟨x, hx, hw⟩
  cases type with
  | secret => exact hcore _ rfl (by decide)
  | serviceAccount => exact hcore _ rfl (by decide)
  | image | builder | clusterBuilder | clusterStack | clusterStore => exact hbuild _ rfl

end Schemas

/-- An object of a known type has an object as its document. -/
theorem Resource.isObject_document {type : ResourceType} {j : Json} {r : Resource}
    (h : Resource.ofJson (some type) j = .ok r) : r.document.isObject = true := by
  obtain ⟨shape, own, -, hschema, -⟩ := Schemas.exists_metadata_field type
  exact Schema.isObject_decode_record (hschema ▸ (Resource.ofJson_eq_ok_iff.1 h).2)

open Schema Schemas in
/-- An object is read with the name that is stored. -/
theorem Resource.name_eq_of_ofJson {type : ResourceType} {stored : Json} (hw : stored.WellFormed)
    {observed : Resource} (ho : Resource.ofJson (some type) stored = .ok observed) {name : String}
    (hname : stored.at? ["metadata", "name"] = some (.str name)) : observed.name = name := by
  obtain ⟨shape, own, f, hschema, hseparate, hf, hkey, hfield⟩ := exists_metadata_field type
  obtain ⟨-, hread⟩ := Resource.ofJson_eq_ok_iff.1 ho
  -- The metadata is an object that has the name
  obtain ⟨metadata, hmetadata, hinner⟩ := Option.bind_eq_some_iff.1 hname
  obtain ⟨_, htext, hsame⟩ := Option.bind_eq_some_iff.1 hinner
  cases hsame
  obtain ⟨ms, rfl⟩ := isObject_iff.1 (isObject_of_get? hmetadata)
  obtain ⟨m, rfl⟩ := isObject_iff.1 (isObject_of_get? htext)
  rw [hschema] at hread
  obtain ⟨xs, hxs, hreads⟩ := of_decode_record hw.sorted hseparate hread
  have hmember := hreads.field f hf
  rw [hkey, show Entries.get? ms "metadata" = _ from hmetadata] at hmember
  obtain ⟨x, hx, hget⟩ := hfield m _ hmember
  obtain ⟨x, rfl⟩ := isObject_iff.1 (isObject_decode_record hx)
  have hnamed := get?_name_of_decode (hw.member hmetadata).sorted hx htext
  simp [Resource.name, Resource.metadata, hxs, hget, Json.ofOption, hnamed, text?]

end BuilderControl
