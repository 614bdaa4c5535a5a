import BuilderControl.Proofs.BuilderUpdates
import BuilderControl.Proofs.Convergence
import BuilderControl.Proofs.Stable

/-!
# Documents of builders as they are stored and read

What commands make of a builder is what is read back after it was stored, up to the generation that
the store counts.

## Key results

- `Builder.ofJson_updated`: setting values before or after reading is the same
- `Builder.patch_specPatch_eq`: what a store answers to a patch that sets values
- `Builder.sameButGeneration_updated`: setting only what is pending leads to the same value
- `Builder.ofJson_initial_new`: a new builder is read as it is stored
-/

namespace BuilderControl

open Json Schema Schemas MemoryStore

/-! ## Values without their generation -/

namespace Json

/-- What is the same value stays so without a place. -/
theorem canon_without {a b : Json} (ha : a.WellFormed) (hb : b.WellFormed)
    (h : a.canon = b.canon) (names : List String) :
    (a.without (names.map .field)).canon = (b.without (names.map .field)).canon := by
  induction names generalizing a b with
  | nil => exact h
  | cons k names ih =>
    cases hobj : a.isObject with
    | false =>
      rw [without_of_not_isObject hobj,
        without_of_not_isObject (by rw [← isObject_of_canon_eq h, hobj])]
      exact h
    | true =>
      have hobj' : b.isObject = true := by rw [← isObject_of_canon_eq h, hobj]
      -- Two objects with the same canonical form are compared member by member
      refine (ha.without _).canon_eq (hb.without _) ((isObject_without ha _).trans hobj)
        ((isObject_without hb _).trans hobj') fun l => ?_
      have hget := get?_of_canon_eq h
      rw [get?_without ha, get?_without hb]
      split
      · split
        · rfl
        · -- Below the member, both sides are the same value again
          have hk := hget k
          cases hx : a.get? k with
          | none =>
            cases hy : b.get? k with
            | none => rfl
            | some y => rw [hx, hy] at hk; cases hk
          | some x =>
            cases hy : b.get? k with
            | none => rw [hx, hy] at hk; cases hk
            | some y =>
              rw [hx, hy] at hk
              exact congrArg some (ih (ha.get? hx) (hb.get? hy) (Option.some.inj hk))
      · exact hget l

/-- Documents that are the same value apart from the generation. -/
def SameButGeneration (a b : Json) : Prop :=
  (a.without generationPath).same (b.without generationPath) = true

/-- Being the same but for the generation is transitive. -/
theorem SameButGeneration.trans {a b c : Json} (hab : a.SameButGeneration b)
    (hbc : b.SameButGeneration c) : a.SameButGeneration c :=
  same_iff.2 ((same_iff.1 hab).trans (same_iff.1 hbc))

/-- The same value is the same without its generation. -/
theorem sameButGeneration_of_canon_eq {a b : Json} (ha : a.WellFormed) (hb : b.WellFormed)
    (h : a.canon = b.canon) : a.SameButGeneration b :=
  same_iff.2 (canon_without ha hb h ["metadata", "generation"])

/-- The metadata without the generation, or any other member. -/
private theorem get?_without_generationPath {j : Json} (hj : j.WellFormed) (k : String) :
    (j.without generationPath).get? k =
      if k = "metadata" then (j.get? "metadata").map (·.without [.field "generation"])
      else j.get? k := get?_without hj "metadata" ["generation"] k

/-- Setting the same value outside of the metadata keeps documents the same but for the generation.
-/
theorem SameButGeneration.set {a b v : Json} (h : a.SameButGeneration b) (ha : a.WellFormed)
    (hb : b.WellFormed) (hv : v.WellFormed) {k : String} (hk : k ≠ "metadata") :
    (a.set k v).SameButGeneration (b.set k v) := by
  have hget := get?_of_canon_eq (same_iff.1 h)
  have hwa := ha.set hv k
  have hwb := hb.set hv k
  refine same_iff.2 ((hwa.without ["metadata", "generation"]).canon_eq
    (hwb.without ["metadata", "generation"]) (isObject_without hwa ["metadata", "generation"])
    (isObject_without hwb ["metadata", "generation"]) fun l => ?_)
  have hl := hget l
  rw [get?_without_generationPath ha, get?_without_generationPath hb] at hl
  show (((a.set k v).without generationPath).get? l).map canon =
    (((b.set k v).without generationPath).get? l).map canon
  rw [get?_without_generationPath hwa, get?_without_generationPath hwb]
  -- The metadata is not touched, and any other member is the one set or as it was
  by_cases hlm : l = "metadata"
  · rw [if_pos hlm, if_pos hlm] at hl ⊢
    rw [get?_set, get?_set, if_neg hk.symm, if_neg hk.symm]
    exact hl
  · rw [if_neg hlm, if_neg hlm] at hl ⊢
    rw [get?_set, get?_set]
    split
    · rfl
    · exact hl

end Json

/-- The generation can be set in metadata that are there. -/
theorem sameButGeneration_withGeneration {j m : Json} (hj : j.WellFormed) (hobj : j.isObject = true)
    (hm : j.get? "metadata" = some m) (hmo : m.isObject = true) (g : Int) :
    (withGeneration j g).SameButGeneration j := by
  have hw := wellFormed_withGeneration hj g
  have hwm := hj.get? hm
  have hnumber : (Json.num (.int g)).WellFormed := trivial
  have hset := hwm.set hnumber "generation"
  -- The metadata differs in the generation only, and the object in the metadata only
  have hmember : (m.set "generation" (.num (.int g))).without (["generation"].map .field) =
      m.without (["generation"].map .field) := by
    refine (hset.without _).ext (hwm.without _) (isObject_without hset _)
      ((isObject_without hwm _).trans hmo) fun l => ?_
    rw [get?_without hset, get?_without hwm]
    split
    · rfl
    · rename_i hl
      exact (get?_set _ _ _ _).trans (if_neg hl)
  have heq : (withGeneration j g).without (["metadata", "generation"].map .field) =
      j.without (["metadata", "generation"].map .field) := by
    refine (hw.without _).ext (hj.without _) (isObject_without hw _)
      ((isObject_without hj _).trans hobj) fun k => ?_
    rw [get?_without hw, get?_without hj, get?_withGeneration, if_pos rfl, hm]
    split
    · exact congrArg some hmember
    · rename_i hk
      rw [get?_withGeneration, if_neg hk]
  show ((withGeneration j g).without generationPath).same (j.without generationPath) = true
  rw [show generationPath = ["metadata", "generation"].map .field from rfl, heq]
  exact same_iff.2 rfl

/-! ## Values that are there already -/

namespace Json

/-- Setting a value that is there already leads to the same value. -/
theorem canon_put {j v : Json} (hj : j.WellFormed) (hv : v.WellFormed) {names : List String}
    (h : (j.at? names).map canon = some v.canon) : (j.put names v).canon = j.canon := by
  induction names generalizing j with
  | nil => exact (Option.some.inj h).symm
  | cons k names ih =>
    cases hg : j.get? k with
    | none => rw [at?_cons, hg] at h; cases h
    | some w =>
      have hobj := isObject_of_get? hg
      rw [at?_cons, hg] at h
      refine (hj.put (k :: names) hv).canon_eq hj rfl hobj fun l => ?_
      rw [get?_put_cons]
      split
      · rename_i hl
        subst hl
        rw [hg]
        exact congrArg some (ih (hj.get? hg) h)
      · rfl

/-- Setting only what is pending leads to the same value. -/
theorem canon_putAll_pending {j : Json} (hj : j.WellFormed) (hobj : j.isObject = true)
    {places : Placements} (h : places.Settable) :
    (j.putAll (j.pending places)).canon = (j.putAll places).canon := by
  have hpending := h.pending j
  -- No two values are set under one key, so each key is compared alone
  refine (hj.putAll hpending.wellFormed).canon_eq (hj.putAll h.wellFormed) (isObject_putAll hobj)
    (isObject_putAll hobj) fun k => ?_
  rw [get?_putAll _ hpending.distinct, get?_putAll _ h.distinct, get?_pending _ h.distinct]
  cases hp : Entries.get? places k with
  | none => rfl
  | some p =>
    obtain ⟨names, v⟩ := p
    have hv := h.wellFormed _ (Entries.mem_of_get? hp)
    cases hholds : j.holds (k, names, v) with
    | false => simp [Option.filter, hholds]
    | true =>
      -- It is there already, so it makes no difference
      have hat : ((j.get? k).bind (·.at? names)).map canon = some v.canon := holds_iff.1 hholds
      simp only [Option.filter, hholds, Bool.not_true, Bool.false_eq_true, if_false]
      cases hg : j.get? k with
      | none => rw [hg] at hat; cases hat
      | some w =>
        rw [hg] at hat
        exact congrArg some (canon_put (hj.get? hg) hv hat).symm

end Json

namespace Builder

/-! ## Values that were set -/

/-- Setting well-formed values keeps a stored document well-formed. -/
theorem wellFormed_updated {stored : Json} (hw : stored.WellFormed) {places : Placements}
    (hp : ∀ p ∈ places, p.2.2.WellFormed) : (updated stored places).WellFormed := by
  rw [updated]
  split
  · exact hw
  · exact wellFormed_withGeneration
      (hw.set ((WellFormed.ofOption fun _ => hw.get?).putAll hp) "spec") _

/-- Each value that is set is there afterwards, as no other is set under its key. -/
theorem at?_updated_of_mem (stored : Json) {places : Placements}
    (hd : (places.map Prod.fst).Nodup) {p : String × List String × Json} (hp : p ∈ places) :
    (updated stored places).at? ("spec" :: p.1 :: p.2.1) = some p.2.2 := by
  rw [updated, if_neg (List.ne_nil_of_mem hp), at?_withGeneration_cons (by simp), at?_cons,
    get?_set, if_pos rfl, Option.bind_some]
  exact at?_putAll_of_mem _ hd hp

/-- The values that clients ask for are below the same names if they are below the same key. -/
theorem Changes.names_eq {c d : Changes} {p q : String × List String × Json} (hp : p ∈ c.places)
    (hq : q ∈ d.places) (h : p.1 = q.1) : p.2.1 = q.2.1 := by
  rcases mem_places_iff.1 hp with ⟨_, -, rfl⟩ | ⟨_, -, rfl⟩ | ⟨_, -, rfl⟩ | ⟨_, -, rfl⟩ <;>
  rcases mem_places_iff.1 hq with ⟨_, -, rfl⟩ | ⟨_, -, rfl⟩ | ⟨_, -, rfl⟩ | ⟨_, -, rfl⟩ <;>
  first | rfl | simp at h

/-- What is asked for and not pending was observed. -/
theorem Changes.observed_of_not_mem_pending {c : Changes} {observed : Resource}
    {p : String × List String × Json} (hp : p ∈ c.places) (h : p ∉ c.pending observed) :
    (observed.document.at? ("spec" :: p.1 :: p.2.1)).map canon = some p.2.2.canon := by
  rw [mem_pending_iff, not_and] at h
  exact Decidable.not_not.1 (h hp)

/-! ## Reading what was changed -/

/-- Changes whose order is as documents of builders hold it. -/
def Changes.IsNormal (c : Changes) : Prop := ∀ order, c.order = some order → Order.IsNormal order

/-- The order of changes that were read comes from a file, which leaves it in normal form. -/
theorem Changes.isNormal_of_read {request : Command.ChangeRequest} {files : Files}
    {changes : Changes} (h : request.read files = .ok changes) : changes.IsNormal := fun _ ho => by
  obtain ⟨path, hpath⟩ := (Command.ChangeRequest.read_eq_ok_iff.1 h).exists_ofFile ho
  exact Order.isNormal_ofFile hpath

/-- A field that is always written. -/
theorem readField_defaulted_some {key : String} {value v x : Json} {s : Schema}
    (h : decode .memory s v = .ok x) :
    readField (defaulted key value s) (some v) = .ok (some x) :=
  readField_defaulted.2 (Or.inr ⟨v, x, rfl, h, by simp⟩)

/-- An order in normal form is not empty, so it is written as it is. -/
theorem readField_order {order : List Json} (h : Order.IsNormal order) :
    readField (omitted "order" (.arr []) (.list orderEntry)) (some (.arr order)) =
      .ok (some (.arr order)) :=
  readField_defaulted.2 (Or.inr ⟨_, _, rfl, h.decode, by simp [h.ne_nil]⟩)

/-- The fields of a reference have distinct keys, and nothing else is kept. -/
theorem separate_objectReference : Separate { title := "ObjectReference" }
    [optional "apiVersion" .text, optional "fieldPath" .text, optional "kind" .text,
      optional "name" .text, optional "namespace" .text, optional "resourceVersion" .text,
      optional "uid" .text] [] := ⟨by decide, Or.inl rfl⟩

/-- Setting the name in a reference before or after reading is the same. -/
theorem readField_reference {key name : String} {raw read : Option Json}
    (hw : ∀ v, raw = some v → v.WellFormed)
    (h : readField (defaulted key (.obj []) objectReference) raw = .ok read) :
    readField (defaulted key (.obj []) objectReference)
        (some ((Json.ofOption raw).put ["name"] (.str name))) =
      .ok (some ((Json.ofOption read).put ["name"] (.str name))) := by
  -- An absent reference is read as an empty one, where the name is set as well
  rcases readField_defaulted.1 h with ⟨rfl, hread⟩ | ⟨v, x, rfl, hx, hread⟩
  · obtain rfl : read = some (.obj []) := hread
    exact readField_defaulted_some rfl
  · obtain rfl : read = some x := by simpa using hread
    obtain ⟨ms, rfl⟩ := isObject_iff.1 (isObject_of_decode_record rfl hx)
    obtain ⟨xs, rfl⟩ := isObject_iff.1 (isObject_decode_record hx)
    have hname : readField (optional "name" .text) (some (.str name)) = .ok (some (.str name)) :=
      readField_optional.2 (Or.inr ⟨_, _, rfl, by simp, rfl, rfl⟩)
    exact readField_defaulted_some (decode_record_insert (hw _ rfl).sorted separate_objectReference
      hx (f := optional "name" .text) (by simp) hname)

section Spec

variable {shape : RecordShape} {own : List (FieldInfo × Schema)}
  (hd : Separate shape own builderFields) {c : Changes} (hc : c.IsNormal)
include hd hc

/-- Setting one value in a spec before or after reading is the same. -/
private theorem decode_spec_put {ms os : Entries String Json} (hw : (Json.obj ms).WellFormed)
    (h : decode .memory (.record shape own builderFields) (.obj ms) = .ok (.obj os))
    {p : String × List String × Json} (hp : p ∈ c.places) :
    decode .memory (.record shape own builderFields) ((Json.obj ms).put (p.1 :: p.2.1) p.2.2) =
      .ok ((Json.obj os).put (p.1 :: p.2.1) p.2.2) := by
  obtain ⟨_, heq, hreads⟩ := of_decode_record hw.sorted hd h
  cases heq
  have hmem : ∀ f ∈ builderFields, f ∈ own ++ builderFields :=
    fun f hf => List.mem_append_right _ hf
  have hinsert : ∀ f ∈ builderFields, ∀ v w : Json, readField f (some v) = .ok (some w) →
      decode .memory (.record shape own builderFields) (.obj (Entries.insert ms f.1.key v)) =
        .ok (.obj (Entries.insert os f.1.key w)) :=
    fun f hf v w => decode_record_insert hw.sorted hd h (hmem f hf)
  -- The tag and the order replace a field, the names of stack and store are set within one
  rcases Changes.mem_places_iff.1 hp with ⟨tag, -, rfl⟩ | ⟨name, -, rfl⟩ | ⟨name, -, rfl⟩ |
    ⟨order, ho, rfl⟩
  · exact hinsert (defaulted "tag" (.str "") .text) (by simp [builderFields]) _ _
      (readField_defaulted_some rfl)
  · have hstack : defaulted "stack" (.obj []) objectReference ∈ builderFields := by
      simp [builderFields]
    exact hinsert _ hstack _ _
      (readField_reference (fun _ => hw.member) (hreads.field _ (hmem _ hstack)))
  · have hstore : defaulted "store" (.obj []) objectReference ∈ builderFields := by
      simp [builderFields]
    exact hinsert _ hstore _ _
      (readField_reference (fun _ => hw.member) (hreads.field _ (hmem _ hstore)))
  · exact hinsert (omitted "order" (.arr []) (.list orderEntry)) (by simp [builderFields]) _ _
      (readField_order (hc order ho))

/-- Setting values in a spec before or after reading is the same. -/
theorem decode_spec_putAll {ms os : Entries String Json} (hw : (Json.obj ms).WellFormed)
    (h : decode .memory (.record shape own builderFields) (.obj ms) = .ok (.obj os))
    {places : Placements} (hp : ∀ p ∈ places, p ∈ c.places) (hv : ∀ p ∈ places, p.2.2.WellFormed) :
    decode .memory (.record shape own builderFields) ((Json.obj ms).putAll places) =
      .ok ((Json.obj os).putAll places) := by
  -- After each value the spec is read with that value set, so the next is set in both
  induction places generalizing ms os with
  | nil => exact h
  | cons p places ih =>
    exact ih (hw.put (p.1 :: p.2.1) (hv p List.mem_cons_self))
      (decode_spec_put hd hc hw h (hp p List.mem_cons_self))
      (fun q hq => hp q (List.mem_cons_of_mem _ hq)) fun q hq => hv q (List.mem_cons_of_mem _ hq)

end Spec

section Documents

variable {type : ResourceType} (htype : type = .builder ∨ type = .clusterBuilder) {stored : Json}
  (hw : stored.WellFormed) {observed : Resource}
  (ho : Resource.ofJson (some type) stored = .ok observed)
include htype hw ho

/-- Setting values and the generation before or after reading is the same. -/
theorem ofJson_updated {c : Changes} (hc : c.places.Settable) (hn : c.IsNormal)
    {places : Placements} (hp : places.Sublist c.places)
    (hg : IsGeneration (generationOf stored + 1)) :
    Resource.ofJson (some type) (updated stored places) =
      .ok ⟨some type, updated observed.document places⟩ := by
  obtain ⟨htypes, hx⟩ := Resource.ofJson_eq_ok_iff.1 ho
  -- Without values not even the generation changes
  by_cases hne : places = []
  · rw [updated, if_pos hne, updated, if_pos hne, ho, ← htypes]
  · obtain ⟨ms, os, raw, spec, rfl, hos, hraw, hspec, -⟩ := exists_spec htype hw ho
    obtain ⟨shape, own, hschema, -, hd⟩ := exists_builderSpec htype
    rw [hschema, hos] at hx
    obtain ⟨_, heq, hreads⟩ := of_decode_record hw.sorted (separate_build _ _) hx
    cases heq
    have hgeneration : generationOf observed.document = generationOf (.obj ms) := by
      rw [hos, generationOf_eq_of_decode hw.sorted hx hw]
    -- The spec is read with the values set, and so is the object around it
    have hfield : required "spec" (.record shape own builderFields) ∈
        buildFields (.record shape own builderFields) ++ [] := by simp [buildFields]
    obtain ⟨v, x, hv, hread, hx'⟩ := readField_required.1 (hreads.field _ hfield)
    cases hraw.symm.trans hv
    cases hspec.symm.trans hx'
    have hspecs := decode_spec_putAll hd hn (hw.member hraw) hread (fun p hmem => hp.subset hmem)
      fun p hmem => hc.wellFormed p (hp.subset hmem)
    have hset := decode_record_insert hw.sorted (separate_build _ _) hx hfield
      (readField_required.2 ⟨_, _, rfl, hspecs, rfl⟩)
    have hwset := hw.set ((hw.member hraw).putAll fun p hmem =>
      hc.wellFormed p (hp.subset hmem)) "spec"
    refine Resource.ofJson_eq_ok_iff.2 ⟨rfl, ?_⟩
    rw [hschema, updated, if_neg hne, updated, if_neg hne, hgeneration, hos, get?_obj, get?_obj,
      hraw, hspec]
    exact decode_withGeneration hwset.sorted hset hwset hg

/-- Without planned faults, a patch that sets values is answered with them set in what was
observed. -/
theorem patch_specPatch_eq {c : Changes} (hc : c.places.Settable) (hn : c.IsNormal)
    {places : Placements} (hp : places.Sublist c.places) (hne : places ≠ [])
    (hg : IsGeneration (generationOf stored + 1)) {s : MemoryStore} (hfaults : s.faults = [])
    {ns : Option String} {name : String}
    (hget : Entries.get? s.objects (.ofLocation type ns name) = some stored) :
    Store.patch type ns name (specPatch places) s = {
      reply := .done (.ok ⟨some type, updated observed.document places⟩)
      store := { s with
        calls := s.calls ++ [⟨.patch (specPatch places).toJson, type, ns, name⟩]
        objects := Entries.insert s.objects (.ofLocation type ns name)
          (updated stored places) } } := by
  have hread := ofJson_updated htype hw ho hc hn hp hg
  -- What the patch leads to is the stored document with the values set
  have hpatched := patched_specPatch htype hw ho (hc.sublist hp) hne
  rw [← hpatched] at hread ⊢
  rw [patch_eq hfaults hget hread, afterPatch, hfaults]
  rfl

/-- The store counts no further than generations go. -/
theorem isGeneration_of_ofJson_updated {c : Changes} (hc : c.places.Settable)
    {places : Placements} (hp : places.Sublist c.places) (hne : places ≠ []) {r : Resource}
    (h : Resource.ofJson (some type) (updated stored places) = .ok r) :
    IsGeneration (generationOf stored + 1) := by
  obtain ⟨ms, os, raw, spec, rfl, hos, hraw, hspec, -⟩ := exists_spec htype hw ho
  obtain ⟨shape, own, hschema, -, -⟩ := exists_builderSpec htype
  obtain ⟨-, hx⟩ := Resource.ofJson_eq_ok_iff.1 h
  rw [hschema, updated, if_neg hne, get?_obj, hraw] at hx
  have hwset := hw.set ((hw.member hraw).putAll fun p hmem =>
    hc.wellFormed p (hp.subset hmem)) "spec"
  -- It is the next generation that was read
  exact isGeneration_of_decode hwset hx

/-- What is read after only the pending values were set is what was made of what was observed. -/
theorem sameButGeneration_updated {c : Changes} (hc : c.places.Settable)
    (hne : c.pending observed ≠ []) :
    (updated observed.document (c.pending observed)).SameButGeneration
      (c.apply observed).document := by
  obtain ⟨ms, os, raw, spec, rfl, hos, hraw, hspec, -⟩ := exists_spec htype hw ho
  obtain ⟨shape, own, hschema, -, -⟩ := exists_builderSpec htype
  obtain ⟨-, hx⟩ := Resource.ofJson_eq_ok_iff.1 ho
  rw [hschema, hos] at hx
  obtain ⟨m, x, -, -, hmetadata⟩ := exists_metadata_of_decode hw.sorted hx
  have hwo := Resource.wellFormed_ofJson hw ho
  rw [hos] at hwo
  have hws : (Json.obj spec).WellFormed := hwo.member hspec
  have hpending : c.pending observed = (Json.obj spec).pending c.places := by
    rw [Changes.pending, hos, get?_obj, hspec]
    rfl
  rw [hpending] at hne
  rw [Changes.document_apply, hos, get?_obj, hspec, hpending]
  have hall := hwo.set (hws.putAll hc.wellFormed) "spec"
  have hsome := hwo.set (hws.putAll (hc.pending (.obj spec)).wellFormed) "spec"
  -- The specs are the same value, as what is not pending is there already
  have hcanon : ((Json.obj os).set "spec" ((Json.obj spec).putAll
      ((Json.obj spec).pending c.places))).canon =
        ((Json.obj os).set "spec" ((Json.obj spec).putAll c.places)).canon := by
    refine hsome.canon_eq hall rfl rfl fun k => ?_
    rw [get?_set, get?_set]
    split
    · exact congrArg some (canon_putAll_pending hws rfl hc)
    · rfl
  rw [updated, if_neg hne, get?_obj, hspec]
  have hm : ((Json.obj os).set "spec" ((Json.obj spec).putAll
      ((Json.obj spec).pending c.places))).get? "metadata" = some (.obj x) := by
    rw [get?_set, if_neg (by simp)]
    exact hmetadata
  -- One step for the generation that was set, one for the values that were not
  exact (sameButGeneration_withGeneration hsome rfl hm rfl _).trans
    (sameButGeneration_of_canon_eq hsome hall hcanon)

end Documents

/-! ## New builders -/

section New

variable (account : Account) (ns : Option String) (name : String) (content : Content)

/-- The spec of a new builder. -/
def newSpec : List (String × Json) :=
  [("tag", .str content.tag), ("stack", reference "ClusterStack" content.stack),
    ("store", reference "ClusterStore" content.store)] ++
  (if content.order.isEmpty then [] else [("order", .arr content.order)]) ++ account.members

/-- The metadata of a new builder. -/
def newMetadata : List (String × Json) :=
  ("name", .str name) :: (ns.map fun ns => ("namespace", Json.str ns)).toList

/-- A new builder with the identity of its type. -/
def identified : Json :=
  ((Builder.new account ns name content).document.set "apiVersion"
    (.str account.type.apiVersion)).set "kind" (.str account.type.name)

/-- A new builder with its identity is an object of four members. -/
theorem identified_eq : identified account ns name content =
    .obj [("apiVersion", .str account.type.apiVersion), ("kind", .str account.type.name),
      ("metadata", Json.object (newMetadata ns name)),
      ("spec", Json.object (newSpec account content))] := rfl

/-- The metadata of a new builder is read as it is. -/
private theorem decode_newMetadata :
    decode .memory objectMeta (Json.object (newMetadata ns name)) =
      .ok (Json.object (newMetadata ns name)) := by
  cases ns <;> rfl

/-- The spec of a new builder before its content is set. -/
def blankSpec : Json :=
  Json.object ([("tag", .str ""), ("stack", .object [("kind", .str "ClusterStack")]),
    ("store", .object [("kind", .str "ClusterStore")])] ++ account.members)

/-- The content of a new builder, as changes to one that has none. -/
def Content.changes (content : Content) : Changes :=
  ⟨some content.tag, some content.stack, some content.store, some content.order⟩

/-- The spec of a new builder is a blank one in which its content is set. -/
private theorem newSpec_eq (h : content.order ≠ []) :
    Json.object (newSpec account content) = (blankSpec account).putAll content.changes.places := by
  have hempty : content.order.isEmpty = false := by simpa using h
  have hputs : (blankSpec account).putAll content.changes.places =
      ((((blankSpec account).put ["tag"] (.str content.tag)).put ["stack", "name"]
        (.str content.stack)).put ["store", "name"] (.str content.store)).put ["order"]
          (.arr content.order) := rfl
  rw [hputs]
  cases account with
  | here sa =>
    simp only [newSpec, blankSpec, Account.members, hempty]
    cases sa.isEmpty <;> rfl
  | elsewhere sa ns =>
    simp only [newSpec, hempty]
    rfl

/-- What an account adds to a spec is well-formed. -/
private theorem wellFormed_members : ∀ e ∈ account.members, e.2.WellFormed := by
  have hreference : ∀ kind name, (reference kind name).WellFormed := fun kind name =>
    wellFormed_object fun e he => by
      simp only [List.mem_cons, List.not_mem_nil, or_false] at he
      rcases he with rfl | rfl <;> trivial
  have htext : ∀ text, (Json.str text).WellFormed := fun _ => trivial
  intro e he
  cases account with
  | here sa =>
    simp only [Account.members] at he
    split at he
    · cases he
    · cases List.mem_singleton.1 he
      exact htext sa
  | elsewhere sa ns =>
    cases List.mem_singleton.1 he
    exact (hreference _ _).set (htext ns) "namespace"

/-- A blank spec is well-formed. -/
private theorem wellFormed_blankSpec : (blankSpec account).WellFormed := by
  refine wellFormed_object fun e he => ?_
  rcases List.mem_append.1 he with he | he
  · simp only [List.mem_cons, List.not_mem_nil, or_false] at he
    rcases he with rfl | rfl | rfl <;> decide
  · exact wellFormed_members account e he

/-- The schema of the specs of an account's builders. -/
private theorem exists_decode_blankSpec : ∃ shape own,
    account.type.schema = build account.type (.record shape own builderFields) ∧
      Separate shape own builderFields ∧
      decode .memory (.record shape own builderFields) (blankSpec account) =
        .ok (blankSpec account) := by
  cases account with
  | here sa =>
    have hd : Separate { title := "struct NamespacedBuilderSpec", unique := true }
        [omitted "serviceAccount" (.str "") .text] builderFields :=
      ⟨by decide, Or.inr ⟨rfl, rfl⟩⟩
    have hnone : decode .memory builderSpec (blankSpec (.here "")) = .ok (blankSpec (.here "")) :=
      rfl
    refine ⟨_, _, rfl, hd, ?_⟩
    cases hsa : sa.isEmpty with
    | true =>
      simp only [blankSpec, Account.members, hsa]
      exact hnone
    | false =>
      -- A name that is not empty is written
      have hread : readField (omitted "serviceAccount" (.str "") .text) (some (.str sa)) =
          .ok (some (.str sa)) :=
        readField_defaulted.2 (Or.inr ⟨_, _, rfl, rfl, by
          have hne : sa ≠ "" := by
            rintro rfl
            cases hsa
          simp [hne]⟩)
      have hinsert := decode_record_insert (Entries.sorted_ofList _) hd hnone List.mem_cons_self
        hread
      simp only [blankSpec, Account.members, hsa]
      exact hinsert
  | elsewhere sa ns => exact ⟨_, _, rfl, ⟨by decide, Or.inr ⟨rfl, rfl⟩⟩, rfl⟩

variable {content} (ho : Order.IsNormal content.order)
include ho

/-- The content of a new builder can be set, as its order is well-formed. -/
private theorem settable_changes : content.changes.places.Settable :=
  Changes.settable_places fun order horder => by
    cases horder
    exact ho.wellFormed

/-- The spec of a new builder is well-formed. -/
private theorem wellFormed_newSpec : (Json.object (newSpec account content)).WellFormed := by
  rw [newSpec_eq account content ho.ne_nil]
  exact (wellFormed_blankSpec account).putAll (settable_changes ho).wellFormed

/-- A new builder with its identity is well-formed. -/
theorem wellFormed_identified : (identified account ns name content).WellFormed := by
  have hmetadata : (Json.object (newMetadata ns name)).WellFormed := by
    refine wellFormed_object fun e he => ?_
    rcases List.mem_cons.1 he with rfl | he
    · trivial
    · obtain ⟨ns, -, rfl⟩ := Option.map_eq_some_iff.1 (Option.mem_toList.1 he)
      trivial
  have htext : ∀ text, (Json.str text).WellFormed := fun _ => trivial
  refine ((wellFormed_object fun e he => ?_).set (htext _) "apiVersion").set (htext _) "kind"
  simp only [List.mem_cons, List.not_mem_nil, or_false] at he
  rcases he with rfl | rfl
  · exact hmetadata
  · exact wellFormed_newSpec account ho

/-- A new builder with its identity is read as it is. -/
private theorem decode_identified : account.type.schema.decode .memory
    (identified account ns name content) = .ok (identified account ns name content) := by
  obtain ⟨shape, own, hschema, hd, hblank⟩ := exists_decode_blankSpec account
  have hw := wellFormed_identified account ns name ho
  -- The content is set in a blank spec, which is read as it is
  have hspec : decode .memory (.record shape own builderFields)
      (Json.object (newSpec account content)) = .ok (Json.object (newSpec account content)) := by
    have hnormal : content.changes.IsNormal := fun order horder => by
      cases horder
      exact ho
    rw [newSpec_eq account content ho.ne_nil]
    exact decode_spec_putAll hd hnormal (wellFormed_blankSpec account) hblank (fun _ h => h)
      (settable_changes ho).wellFormed
  rw [identified_eq] at hw ⊢
  rw [hschema, build_eq]
  refine decode_record_self hw.sorted (separate_build _ _) (fun f hf => ?_) fun k hk => ?_
  · simp only [buildFields, List.append_nil, List.mem_cons, List.not_mem_nil, or_false] at hf
    rcases hf with rfl | rfl | rfl
    · exact readField_required.2 ⟨_, _, rfl, decode_newMetadata ns name, rfl⟩
    · exact readField_required.2 ⟨_, _, rfl, hspec, rfl⟩
    · exact readField_optional.2 (Or.inl ⟨rfl, rfl⟩)
  · -- All else is the identity, which is complete
    have hmetadata : "metadata" ≠ k := hk (required "metadata" objectMeta) (by simp [buildFields])
    have hspecKey : "spec" ≠ k :=
      hk (required "spec" (.record shape own builderFields)) (by simp [buildFields])
    rw [get?_assemble_build hw.sorted]
    by_cases hkind : k = "kind"
    · subst hkind
      rfl
    · by_cases hversion : k = "apiVersion"
      · subst hversion
        rfl
      · simp [Entries.get?_cons, textPair, hkind, hversion, Ne.symm hmetadata, Ne.symm hspecKey]

/-- What is stored for a new builder has its content. -/
theorem at?_initial_new {p : String × List String × Json} (hp : p ∈ content.changes.places) :
    (initial account.type (Builder.new account ns name content)).at? ("spec" :: p.1 :: p.2.1) =
      some p.2.2 := by
  have hspec : (identified account ns name content).get? "spec" =
      some (Json.object (newSpec account content)) := by
    rw [identified_eq]
    rfl
  show (withGeneration (identified account ns name content) 1).at? ("spec" :: p.1 :: p.2.1) = _
  rw [at?_withGeneration_cons (by simp), at?_cons, hspec, Option.bind_some,
    newSpec_eq account content ho.ne_nil]
  exact at?_putAll_of_mem _ (settable_changes ho).distinct hp

/-- A new builder is read as it is stored. -/
theorem ofJson_initial_new :
    Resource.ofJson (some account.type)
        (initial account.type (Builder.new account ns name content)) =
      .ok ⟨some account.type, initial account.type (Builder.new account ns name content)⟩ := by
  obtain ⟨shape, own, hschema, -, -⟩ := exists_decode_blankSpec account
  have hw := wellFormed_identified account ns name ho
  have hdecode := decode_identified account ns name ho
  refine Resource.ofJson_eq_ok_iff.2 ⟨rfl, ?_⟩
  show account.type.schema.decode .memory (withGeneration (identified account ns name content) 1) =
    .ok (withGeneration (identified account ns name content) 1)
  rw [hschema] at hdecode ⊢
  rw [identified_eq] at hw hdecode ⊢
  exact decode_withGeneration hw.sorted hdecode hw (by decide)

end New

end Builder

end BuilderControl
