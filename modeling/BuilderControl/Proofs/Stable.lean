import BuilderControl.Proofs.Instants
import BuilderControl.Proofs.KeyOrder
import BuilderControl.Proofs.NormalForm

/-!
# Normal forms are read as they are

What a schema reads is a document in normal form, and reading that again changes nothing.  A field
is settled once: a value in normal form is given again, and none is given where none was written.
So whether a schema is stable comes down to the values that stand for absent fields, and to records
keeping nothing that their fields or a later reading would take away.

## Key results

- `decode_record_self`: a record is read as it is if all its fields are
- `settle_settled`: a field is settled once
- `stable_of_isStable`: what is read by a schema that passes a check is read as it is
- `Order.isNormal_ofFile`: orders read from files are as documents of builders hold them
-/

namespace BuilderControl

open Json

/-- Only what counts as absent is `null` as a document. -/
def Source.ShowsNull {ν : Type} (src : Source ν) : Prop :=
  ∀ v, src.whole v = .ok .null → Schema.isAbsent src v = true

/-- A document is its own value, so only `null` itself shows as `null`. -/
theorem Source.showsNull_memory : Source.memory.ShowsNull := by
  intro v h
  cases h
  rfl

/-- What is read through a buffer shows `null` where it did before. -/
theorem Source.ShowsNull.buffered {ν : Type} {src : Source ν} (h : src.ShowsNull) :
    src.buffered.ShowsNull := by
  intro v hv
  have habsent : Schema.isAbsent src.buffered v = Schema.isAbsent src v := by
    simp only [Schema.isAbsent, Source.buffered]
    cases src.layer v <;> rfl
  rw [habsent]
  exact h v hv

/-- A node shows as `null` only if its layer is that of a missing value. -/
theorem Yaml.showsNull_source (anchors : Anchors) : (source anchors).ShowsNull := by
  intro r h
  change Reached.whole anchors (127 + 1) r = .ok .null at h
  rw [Reached.whole] at h
  simp only [Schema.isAbsent, source]
  split at h
  · rename_i hlayer
    rw [hlayer]
  -- Sequences and mappings are never `null`, even where they are empty
  case h_5 => obtain ⟨_, -, h⟩ := Except.map_ok_iff.1 h; cases h
  case h_6 => obtain ⟨_, -, h⟩ := Except.bind_ok_iff.1 h; cases h
  all_goals cases h

namespace Schema

variable {ν : Type}

/-- Whatever is read, from any source, is read again as it is. -/
def Stable (s : Schema) : Prop :=
  ∀ ⦃ν : Type⦄ (src : Source ν), src.ShowsNull → ∀ v : ν,
    Except.Ensures (decode src s v) fun x => decode .memory s x = .ok x

/-! ## Scalars, lists and tables -/

/-- A text is read as it is. -/
theorem stable_text : Stable .text := by
  intro ν src _ v x h
  obtain ⟨text, -, rfl⟩ := Except.map_ok_iff.1 h
  rfl

/-- A flag is read as it is, also if it was given as a word. -/
theorem stable_flag : Stable .flag := by
  intro ν src _ v x h
  simp only [decode, decodeFlag] at h
  split at h <;> cases h
  rfl

/-- A number within the range is within the range again. -/
theorem stable_integer (range : IntegerRange) : Stable (.integer range) := by
  intro ν src _ v x h
  simp only [decode, decodeInteger] at h
  split at h
  · split at h
    · rename_i hrange
      cases h
      exact if_pos hrange
    · cases h
  · cases h

/-- Bytes are checked and kept as they were written, so they pass the check again. -/
theorem stable_bytes : Stable .bytes := by
  -- Absent bytes are read as the empty text
  have hempty : Base64.check "" = none := by decide +kernel
  intro ν src _ v x h
  simp only [decode, decodeBytes] at h
  split at h
  · cases h
    simp only [decode, decodeBytes, Source.memory, hempty]
  · split at h
    · rename_i hcheck
      cases h
      simp only [decode, decodeBytes, Source.memory, hcheck]
    · cases h
  · cases h

/-- An instant is read again from the text it is written as. -/
theorem stable_instant : Stable .instant := by
  intro ν src _ v x h
  simp only [decode, decodeInstant, Except.bind_ok_iff] at h
  obtain ⟨text, -, h⟩ := h
  split at h
  · rename_i t ht
    cases h
    -- The text need not be the one that was read, but it names the same instant
    have hread := Instant.read_text (Instant.valid_read ht)
    simp only [decode, decodeInstant, decodeText, Source.memory, Except.bind_ok_iff]
    exact ⟨_, rfl, by rw [hread]; rfl⟩
  · cases h

/-- One of the options is one of them again. -/
theorem stable_choice (options : List String) : Stable (.choice options) := by
  intro ν src _ v x h
  simp only [decode, decodeChoice] at h
  split at h
  · split at h
    · rename_i hmem
      cases h
      exact if_pos hmem
    · cases h
  · cases h

/-- A list whose items are read as they are is read as it is. -/
private theorem mapM_self {item : Schema} {xs : List Json}
    (h : ∀ x ∈ xs, decode .memory item x = .ok x) : xs.mapM (decode .memory item) = .ok xs := by
  induction xs with
  | nil => rfl
  | cons x xs ih =>
    rw [List.mapM_cons, h x List.mem_cons_self, ih fun y hy => h y (List.mem_cons_of_mem _ hy)]
    rfl

/-- Lists of stable items are stable. -/
theorem Stable.list {item : Schema} (h : item.Stable) : Stable (.list item) := by
  intro ν src hsrc v x hx
  simp only [decode] at hx
  split at hx
  · obtain ⟨ys, hys, rfl⟩ := Except.map_ok_iff.1 hx
    have hitems : ∀ y ∈ ys, decode .memory item y = .ok y :=
      Except.Ensures.mapM (fun w _ => h src hsrc w) ys hys
    show (ys.mapM (decode .memory item)).map Json.arr = .ok (.arr ys)
    rw [mapM_self hitems]
    rfl
  · cases hx

/-- A table is read as it is if all its members are. -/
theorem decode_table_self {item : Schema} {ms : Entries String Json} (hs : Entries.Sorted ms)
    (h : ∀ k v, Entries.get? ms k = some v → decode .memory item v = .ok v) :
    decode .memory (.table item) (.obj ms) = .ok (.obj ms) := by
  obtain ⟨x, hx⟩ := exists_decode_table (fun k v hv => ⟨v, h k v hv⟩) hs
  obtain ⟨xs, rfl, hsorted, hread⟩ := of_decode_table hs hx
  rw [hx]
  -- What is read has the members of the table one by one
  refine congrArg (Except.ok ∘ Json.obj) (hsorted.ext hs fun k => ?_)
  have hk := hread k
  cases hv : Entries.get? ms k with
  | none =>
    rw [hv] at hk
    exact (Except.ok.inj hk).symm
  | some v =>
    rw [hv, readMember_some] at hk
    obtain ⟨w, hw, heq⟩ := hk
    cases (h k v hv).symm.trans hw
    exact heq

/-- Tables of stable items are stable. -/
theorem Stable.table {item : Schema} (h : item.Stable) : Stable (.table item) := by
  intro ν src hsrc v x hx
  simp only [decode] at hx
  split at hx
  · obtain ⟨es, hes, hx⟩ := Except.bind_ok_iff.1 hx
    cases hx
    -- Every value of the result was read by the schema of the items
    have hitems : ∀ e ∈ es, decode .memory item e.2 = .ok e.2 := by
      refine Except.Ensures.mapM (fun m _ => ?_) es hes
      cases m with
      | fault e => intro _ h; cases h
      | entry key value before after => exact (h src hsrc value).map fun _ hx => hx
    refine decode_table_self (Entries.sorted_ofList es) fun k v hv => ?_
    rw [Entries.get?_ofList] at hv
    exact hitems _ (List.mem_reverse.1 (Entries.mem_of_get? hv))
  · cases hx

/-- What is there is not read as `null`. -/
theorem decode_ne_null {src : Source ν} (hsrc : src.ShowsNull) {s : Schema} {v : ν} {x : Json}
    (h : decode src s v = .ok x) (hv : isAbsent src v = false) : x ≠ .null := by
  rintro rfl
  -- Only documents of any form can be `null`, and those are `null` only if they were before
  cases s with
  | anything => exact absurd (hsrc v h) (by rw [hv]; simp)
  | text => obtain ⟨_, -, h⟩ := Except.map_ok_iff.1 h; cases h
  | instant =>
    simp only [decode, decodeInstant, Except.bind_ok_iff] at h
    obtain ⟨_, -, h⟩ := h
    split at h <;> cases h
  | list item =>
    simp only [decode] at h
    split at h
    · obtain ⟨_, -, h⟩ := Except.map_ok_iff.1 h; cases h
    · cases h
  | table item => exact absurd (isObject_decode_table h) (by simp [isObject])
  | record shape own inlined => exact absurd (isObject_decode_record h) (by simp [isObject])
  | _ =>
    simp only [decode, decodeFlag, decodeInteger, decodeBytes, decodeChoice] at h
    split at h <;> (try split at h) <;> cases h

/-! ## Fields -/

/-- Settling a field again changes nothing. -/
theorem settle_settled {info : FieldInfo} {given written : Option Json}
    (h : settle info given = .ok written) : settle info written = .ok written := by
  obtain ⟨key, presence⟩ := info
  cases presence with
  | required | nullable _ => cases given <;> cases h; rfl
  | optional | lenient _ | fixed _ => cases h; rfl
  | defaulted value always =>
    simp only [settle, Except.ok.injEq] at h
    split at h
    · -- What stands for an absent field is not written, and stands for it again
      rename_i hdefault
      cases h
      simp [settle, hdefault.2]
    · rename_i hwritten
      cases h
      simp only [settle, Option.getD_some, if_neg hwritten]

/-- A value that a field takes as it is. -/
def Takes (f : FieldInfo × Schema) (v : Json) : Prop :=
  readGiven .memory f.1.presence v (decode .memory f.2) = .ok (some v)

/-- A field whose schema is stable, and that takes what stands for its absence as it is. -/
structure StableField (f : FieldInfo × Schema) : Prop where
  stable : f.2.Stable
  takes : ∀ v, f.1.presence.value? = some v → Takes f v

/-- A value that a field takes as it is, if there is one. -/
def GivenStable (f : FieldInfo × Schema) (given : Option Json) : Prop :=
  ∀ v, given = some v → Takes f v

/-- What is written for a field, and is written again when it is read. -/
def WrittenStable (f : FieldInfo × Schema) (written : Option Json) : Prop :=
  readField f written = .ok written

/-- What is given for a stable field is given again. -/
theorem StableField.readGiven {f : FieldInfo × Schema} (hf : StableField f) {src : Source ν}
    (hsrc : src.ShowsNull) (v : ν) :
    Except.Ensures (readGiven src f.1.presence v (decode src f.2)) (GivenStable f) := by
  rintro _ h w rfl
  obtain ⟨⟨key, presence⟩, s⟩ := f
  -- A field that has to be there is read by its schema, the others look for `null` first
  cases presence with
  | required | defaulted _ _ =>
    obtain ⟨x, hx, heq⟩ := Except.map_ok_iff.1 h
    cases heq
    exact Except.map_ok_iff.2 ⟨w, hf.stable src hsrc v w hx, rfl⟩
  | optional | lenient _ | nullable _ =>
    simp only [Schema.readGiven] at h
    split at h
    · cases h <;> exact hf.takes _ rfl
    · -- What is there is read to more than `null`, so it is there again
      rename_i hpresent
      obtain ⟨x, hx, heq⟩ := Except.map_ok_iff.1 h
      cases heq
      have hnull := decode_ne_null hsrc hx (by simpa using hpresent)
      have hw : isAbsent .memory w = false := by
        cases w <;> first | rfl | exact absurd rfl hnull
      simp only [Takes, Schema.readGiven, hw, Bool.false_eq_true, if_false]
      exact Except.map_ok_iff.2 ⟨w, hf.stable src hsrc v w hx, rfl⟩
  | fixed name =>
    simp only [Schema.readGiven, Except.bind_ok_iff] at h
    obtain ⟨j, -, h⟩ := h
    split at h
    · rename_i hname
      cases h
      exact hf.takes _ (congrArg some hname.symm)
    · cases h

/-- What a stable field settles as is read as it is. -/
theorem StableField.settle {f : FieldInfo × Schema} (hf : StableField f) {given : Option Json}
    (hgiven : GivenStable f given) : Except.Ensures (settle f.1 given) (WrittenStable f) := by
  intro written h
  refine readField_ok_iff.2 ⟨written, ?_, settle_settled h⟩
  cases written with
  | none => rfl
  | some v =>
    rcases eq_of_settle_ok h with h | h
    · exact hgiven v h
    · exact hf.takes v h

/-- What is written for a stable field is written again when it is read. -/
theorem StableField.readField {f : FieldInfo × Schema} (hf : StableField f) (raw : Option Json) :
    Except.Ensures (readField f raw) (WrittenStable f) := by
  intro written h
  obtain ⟨given, hgiven, hwritten⟩ := readField_ok_iff.1 h
  have hstable : GivenStable f given := by
    cases raw with
    | none => cases hgiven; intro _ h; cases h
    | some v => exact hf.readGiven Source.showsNull_memory v given hgiven
  exact hf.settle hstable written hwritten

/-! ## Records -/

/-- A record is read as it is if all its fields are, and it holds nothing else but what is kept. -/
theorem decode_record_self {shape : RecordShape} {own inlined : List (FieldInfo × Schema)}
    {ms : Entries String Json} (hs : Entries.Sorted ms) (hd : Separate shape own inlined)
    (hfield : ∀ f ∈ own ++ inlined,
      readField f (Entries.get? ms f.1.key) = .ok (Entries.get? ms f.1.key))
    (hother : ∀ k, (∀ f ∈ own ++ inlined, f.1.key ≠ k) →
      Entries.get? ms k = (assemble shape (unlisted own ms) []).get? k) :
    decode .memory (.record shape own inlined) (.obj ms) = .ok (.obj ms) := by
  obtain ⟨xs, hxs, hreads⟩ := exists_decode_record hs hd fun f hf => ⟨_, hfield f hf⟩
  rw [hxs]
  refine congrArg (Except.ok ∘ Json.obj) (hreads.sorted.ext hs fun k => ?_)
  -- A member is that of a field, or it is one of those the record keeps
  by_cases hlisted : ∃ f ∈ own ++ inlined, f.1.key = k
  · obtain ⟨f, hf, rfl⟩ := hlisted
    exact Except.ok.inj ((hreads.field f hf).symm.trans (hfield f hf))
  · have hk : ∀ f ∈ own ++ inlined, f.1.key ≠ k := fun f hf heq => hlisted ⟨f, hf, heq⟩
    rw [hreads.other k hk, hother k hk]

/-- A record keeps either an identity or all other members, has no fields of its own under the keys
of the identity, and is complete when it is read from a list. -/
structure KeepsApart (shape : RecordShape) (own inlined : List (FieldInfo × Schema)) : Prop
    extends Separate shape own inlined where
  oneKind : shape.identified = false ∨ shape.keepsRest = false
  notIdentity : shape.identified = true → ∀ f ∈ own, f.1.key ≠ "apiVersion" ∧ f.1.key ≠ "kind"
  complete : shape.positional = true → inlined = []

instance (shape : RecordShape) (own inlined : List (FieldInfo × Schema)) :
    Decidable (KeepsApart shape own inlined) :=
  decidable_of_iff
    ((DistinctKeys (own ++ inlined) ∧
      (inlined = [] ∨ (shape.identified = false ∧ shape.keepsRest = false))) ∧
      (shape.identified = false ∨ shape.keepsRest = false) ∧
      (shape.identified = true → ∀ f ∈ own, f.1.key ≠ "apiVersion" ∧ f.1.key ≠ "kind") ∧
      (shape.positional = true → inlined = []))
    ⟨fun ⟨⟨hd, ha⟩, ho, hn, hc⟩ => ⟨⟨hd, ha⟩, ho, hn, hc⟩,
      fun h => ⟨⟨h.distinct, h.alone⟩, h.oneKind, h.notIdentity, h.complete⟩⟩

section Kept

variable {shape : RecordShape} {own inlined : List (FieldInfo × Schema)}
  (hk : KeepsApart shape own inlined) {rest : List (String × Json)}
include hk

/-- What is kept has the key of no field. -/
theorem KeepsApart.get?_kept (hrest : ∀ e ∈ rest, ∀ f ∈ own, f.1.key ≠ e.1) :
    ∀ f ∈ own ++ inlined, (assemble shape rest []).get? f.1.key = none := by
  intro f hf
  -- A field of the record is none of the identity, and is not among the rest
  rcases List.mem_append.1 hf with hown | hinlined
  · cases hi : shape.identified with
    | false =>
      cases hr : shape.keepsRest with
      | false => exact get?_assemble_of_drops hi hr rest f.1.key
      | true =>
        rw [get?_assemble_of_keeps hi hr]
        exact Entries.get?_eq_none_of_forall_ne fun e he =>
          (hrest e (List.mem_reverse.1 he) f hown).symm
    | true =>
      have hr : shape.keepsRest = false := hk.oneKind.resolve_left (by simp [hi])
      obtain ⟨hversion, hkind⟩ := hk.notIdentity hi f hown
      rw [get?_assemble_identity hi hr]
      split
      · rw [if_neg hkind, if_neg hversion]
      · rfl
  · -- Where further fields are read, nothing is kept
    obtain ⟨hi, hr⟩ := hk.alone.resolve_left (List.ne_nil_of_mem hinlined)
    exact get?_assemble_of_drops hi hr rest f.1.key

/-- What is kept is kept again. -/
theorem KeepsApart.get?_kept_again {left : Entries String Json} (hs : Entries.Sorted left)
    (h : ∀ k, Entries.get? left k = (assemble shape rest []).get? k) (k : String) :
    (assemble shape left []).get? k = (assemble shape rest []).get? k := by
  cases hi : shape.identified with
  | false =>
    cases hr : shape.keepsRest with
    | false => rw [get?_assemble_of_drops hi hr, get?_assemble_of_drops hi hr]
    | true => rw [get?_assemble_of_keeps hi hr, hs.get?_reverse, h]
  | true =>
    have hr : shape.keepsRest = false := hk.oneKind.resolve_left (by simp [hi])
    rw [get?_assemble_identified hi hr hs, h, h]
    simp only [get?_assemble_identity hi hr]
    cases (takeIdentity rest none none).1 <;> rfl

/-- A record is read as it was assembled. -/
theorem KeepsApart.decode_assemble (hrest : ∀ e ∈ rest, ∀ f ∈ own, f.1.key ≠ e.1)
    {more members : List (String × Json)} (hmore : Written WrittenStable inlined more)
    (hmembers : Written WrittenStable own members) :
    decode .memory (.record shape own inlined) (assemble shape rest (more ++ members)) =
      .ok (assemble shape rest (more ++ members)) := by
  obtain ⟨hdo, hdi, hne⟩ := hk.distinct.append
  obtain ⟨ms, hms, hs⟩ : ∃ ms, assemble shape rest (more ++ members) = .obj ms ∧
      Entries.Sorted ms := ⟨_, rfl, Entries.sorted_ofList _⟩
  -- A member is one of the fields, one of the further fields, or one of those that are kept
  have hget : ∀ k, Entries.get? ms k = ((Entries.get? members.reverse k).or
      (Entries.get? more.reverse k)).or ((assemble shape rest []).get? k) := by
    intro k
    rw [← Json.get?_obj, ← hms, get?_assemble_append]
  have hkept := hk.get?_kept hrest
  have hother : ∀ k, (∀ f ∈ own ++ inlined, f.1.key ≠ k) →
      Entries.get? ms k = (assemble shape rest []).get? k := by
    intro k hnot
    rw [hget, hmembers.get?_reverse_eq_none fun f hf => hnot f (List.mem_append_left _ hf),
      hmore.get?_reverse_eq_none fun f hf => hnot f (List.mem_append_right _ hf)]
    rfl
  rw [hms]
  -- No key is that of two fields, so each is found where it was written
  refine decode_record_self hs hk.toSeparate (fun f hf => ?_) fun k hnot => ?_
  · rw [hget, hkept f hf, Option.or_none]
    rcases List.mem_append.1 hf with hf | hf
    · rw [hmore.get?_reverse_eq_none fun g hg => (hne f hf g hg).symm, Option.or_none]
      exact hmembers.get?_reverse hdo f hf
    · rw [hmembers.get?_reverse_eq_none fun g hg => hne g hg f hf, Option.none_or]
      exact hmore.get?_reverse hdi f hf
  · rw [hother k hnot]
    rcases hk.alone with rfl | ⟨hi, hr⟩
    · -- All that is not a field was kept
      refine (hk.get?_kept_again (sorted_unlisted own hs) (fun k => ?_) k).symm
      rw [get?_unlisted]
      split
      · rename_i hall
        refine hother k fun f hf => ?_
        rw [List.append_nil] at hf
        simpa using List.all_eq_true.1 hall f hf
      · rename_i hall
        obtain ⟨f, hf, hkey⟩ : ∃ f ∈ own, f.1.key = k := by simpa using hall
        rw [← hkey, hkept f (List.mem_append_left _ hf)]
    · rw [get?_assemble_of_drops hi hr, get?_assemble_of_drops hi hr]

end Kept

/-- Stable fields under distinct keys are given, and then written, as they are. -/
theorem fieldsEnsure_stable {src : Source ν} (hsrc : src.ShowsNull)
    {fields : List (FieldInfo × Schema)} (hd : DistinctKeys fields)
    (h : ∀ f ∈ fields, StableField f) :
    FieldsEnsure src (fun _ => True) GivenStable WrittenStable fields where
  read f hf v _ := (h f hf).readGiven hsrc v
  absent _ _ _ hv := nomatch hv
  sameKey _ hf _ hg hkey _ hgiven := hd.eq hf hg hkey ▸ hgiven
  settle f hf _ hgiven := (h f hf).settle hgiven

/-- Records of stable fields are stable. -/
theorem Stable.record {shape : RecordShape} {own inlined : List (FieldInfo × Schema)}
    (hk : KeepsApart shape own inlined) (hown : ∀ f ∈ own, StableField f)
    (hinlined : ∀ f ∈ inlined, StableField f) : Stable (.record shape own inlined) := by
  obtain ⟨hdo, hdi, -⟩ := hk.distinct.append
  intro ν src hsrc v x hx
  cases (fieldsEnsure_stable hsrc hdo hown).decode_record (Q := fun _ => True)
    (fieldsEnsure_stable hsrc.buffered hdi hinlined) (fun _ _ _ _ => trivial)
    (fun _ _ _ _ _ _ _ _ => trivial) (fun _ _ _ _ _ => trivial) x hx with
  | ofMembers hrest hmore hmembers =>
    exact hk.decode_assemble (fun e he => (hrest e he).2) hmore hmembers
  | @ofItems members hpositional hmembers =>
    -- In array form, nothing is kept besides the fields
    have hassemble : Json.object members = assemble shape [] ([] ++ members) := by
      unfold assemble
      cases shape.identified <;> cases shape.keepsRest <;> rfl
    have hmore : Written WrittenStable inlined [] := hk.complete hpositional ▸ .nil
    rw [hassemble]
    exact hk.decode_assemble (by simp) hmore hmembers

/-! ## Stable schemas -/

mutual
/-- All records keep apart what they keep, and all fields take what stands for their absence. -/
def isStable : Schema → Bool
  | .list item | .table item => isStable item
  | .record shape own inlined =>
    decide (KeepsApart shape own inlined) && areStable own && areStable inlined
  | .text | .flag | .integer _ | .anything | .bytes | .instant | .choice _ => true
def areStable : List (FieldInfo × Schema) → Bool
  | [] => true
  | (info, s) :: fields =>
    info.presence.value?.all (fun v => (readGiven .memory info.presence v
      (decode .memory s)).toOption = some (some v)) && isStable s && areStable fields
end

/-- A list of fields passes the check if each takes what stands for its absence, and its schema
passes. -/
theorem areStable_iff {fields : List (FieldInfo × Schema)} :
    areStable fields = true ↔ ∀ f ∈ fields,
      (∀ v, f.1.presence.value? = some v → Takes f v) ∧ f.2.isStable = true := by
  induction fields with
  | nil => simp [areStable]
  | cons f fields ih =>
    obtain ⟨info, s⟩ := f
    simp only [areStable, Bool.and_eq_true, ih, List.forall_mem_cons, Takes]
    cases info.presence.value? <;> simp [Except.toOption_eq_some]

/-- What is read by a schema that passes the check is read as it is. -/
theorem stable_of_isStable {s : Schema} (h : s.isStable = true) : s.Stable := by
  -- On the form of the schema, with the fields of a record as its parts
  induction s using byFields with
  | text => exact stable_text
  | flag => exact stable_flag
  | integer range => exact stable_integer range
  | anything => exact fun _ _ _ _ _ _ => rfl
  | bytes => exact stable_bytes
  | instant => exact stable_instant
  | choice options => exact stable_choice options
  | list item ih => exact (ih h).list
  | table item ih => exact (ih h).table
  | record shape own inlined iho ihi =>
    simp only [isStable, Bool.and_eq_true, decide_eq_true_eq, areStable_iff] at h
    obtain ⟨⟨hk, ho⟩, hi⟩ := h
    exact Stable.record hk (fun f hf => ⟨iho f hf (ho f hf).2, (ho f hf).1⟩)
      fun f hf => ⟨ihi f hf (hi f hf).2, (hi f hf).1⟩

end Schema

/-! ## Order files -/

namespace Order

open Schema

/-- An order as documents of builders hold it. -/
structure IsNormal (order : List Json) : Prop where
  ne_nil : order ≠ []
  wellFormed : (Json.arr order).WellFormed
  decode : decode .memory (.list Schemas.orderEntry) (.arr order) = .ok (.arr order)

/-- Order files are read as they are once they are in normal form. -/
theorem stable_fileSchema : fileSchema.Stable := stable_of_isStable (by decide)

/-- The entries of an order file in normal form are in normal form. -/
private theorem decode_entries {document : Json} (hw : document.WellFormed)
    (hobj : document.isObject = true)
    (h : fileSchema.decode .memory document = .ok document) :
    Schema.decode .memory (.list Schemas.orderEntry) (.arr (entries document)) =
      .ok (.arr (entries document)) := by
  obtain ⟨ms, rfl⟩ := isObject_iff.1 hobj
  obtain ⟨_, heq, hreads⟩ := of_decode_record hw.sorted ⟨by decide, Or.inl rfl⟩ h
  cases heq
  have horder := hreads.field (Schemas.defaulted "order" (.arr []) (.list Schemas.orderEntry))
    (by simp)
  rcases readField_defaulted.1 horder with ⟨hnone, hsome⟩ | ⟨v, x, hv, hx, hwritten⟩
  · cases hnone.symm.trans hsome
  · -- What is read is what is there already, and it is a list
    rw [Bool.not_true, if_neg (by simp)] at hwritten
    cases hv.symm.trans hwritten
    cases v with
    | arr items =>
      have hget : (Json.obj ms).get? "order" = some (.arr items) := hv
      have hentries : entries (.obj ms) = items := by rw [entries, hget]
      rw [hentries]
      exact hx
    | _ => cases hx

/-- Orders read from files are in normal form. -/
theorem isNormal_ofFile {files : Files} {path : String} {order : List Json}
    (h : ofFile files path = .ok order) : IsNormal order := by
  have horder := wellFormed_ofFile h
  -- An order comes from a file that exists, parses, and has a document that is read by the schema
  simp only [ofFile, Except.mapError_ok_iff, Except.bind_ok_iff] at h
  obtain ⟨text, -, h⟩ := h
  simp only [parse, Except.bind_ok_iff, Except.mapError_ok_iff] at h
  obtain ⟨stream, -, h⟩ := h
  split at h
  · cases h
  · rename_i root rest hdocuments
    simp only [Except.bind_ok_iff, Except.mapError_ok_iff] at h
    obtain ⟨document, hdocument, h⟩ := h
    have hfile := stable_fileSchema (Yaml.source stream.anchors) (Yaml.showsNull_source _) _
      document hdocument
    have hw := wellFormed_decode (Yaml.sound_source stream.anchors) (s := fileSchema) (by decide)
      trivial document hdocument
    have hentries := decode_entries hw (isObject_decode_record hdocument) hfile
    split at h
    · cases h
    · rename_i hne
      cases h
      exact ⟨hne, horder, hentries⟩

end Order

end BuilderControl
