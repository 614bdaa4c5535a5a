import BuilderControl.Proofs.NormalForm
import BuilderControl.Proofs.Settled

/-!
# Patching documents through what a schema reads of them

A patch is computed between two normal forms but applied to the document that the first of them was
read from, which may hold more.  A schema is *mergeable* if the patched document then reads as the
desired one and keeps all fields that the schema does not know.  There is one lemma for each kind
of schema and one for each kind of field, so a schema is mergeable by the way it is built.

## Key results

- `Mergeable.record`: a record is mergeable if its fields are
- `Mergeable.required`, `Mergeable.optional`, `Mergeable.defaulted`, `Mergeable.omitted`: fields
- `mergeable_text`, `mergeable_list`, `mergeable_anything`, `Mergeable.table`: everything else
-/

namespace BuilderControl

namespace Json

/-- The members of a document without `null` members are neither `null` nor hold any. -/
theorem NullFree.get? {j v : Json} (h : j.NullFree) {k : String} (hg : j.get? k = some v) :
    v.NullFree ∧ v ≠ .null := by
  -- A `null` below the member would be one below the document
  refine ⟨fun names hn hnull => ?_, fun hnull => ?_⟩
  · rw [lookup_fields] at hnull
    refine h.at? (List.cons_ne_nil k names) ?_
    rw [at?_cons, hg]
    exact hnull
  · refine h.at? (List.cons_ne_nil k []) ?_
    rw [at?_cons, hg, hnull]
    rfl

/-- Onto anything that has no members, a document without `null` members is merged as it is. -/
theorem NullFree.merge_eq {j v : Json} (h : v.NullFree) (hv : v.WellFormed) (hj : j.members = []) :
    merge j v = v := by
  rw [merge_of_members_eq_nil hj hv, h.settled hv]

/-- A patch removes a member only to make it `null`. -/
theorem ne_null_of_change {observed : Option Json} {v p : Json} (h : v ≠ .null)
    (hp : change observed v = some p) : p ≠ .null := by
  rcases change_eq_some hp with rfl | ⟨_, _, _, _, rfl⟩
  · exact h
  · simp

/-- A member that was not observed is inserted as a whole. -/
theorem NullFree.mergeMember_new {raw : Option Json} {d : Json} (h : d.NullFree)
    (hw : d.WellFormed) (hnull : d ≠ .null) (hraw : (raw.getD .null).members = []) :
    mergeMember raw (changeMember none (some d)) = some d := by
  rw [changeMember_some, change_none hnull, mergeMember_some _ hnull, h.merge_eq hw hraw]

end Json

namespace Schema

open Json

/-! ## Documents as they are stored and desired -/

mutual
/-- No record is written as a list, outside of lists. -/
def inObjectForm : Schema → Json → Bool
  | .record _ own inlined, j =>
    (match j with
      | .arr _ => false
      | _ => true) && fieldsInObjectForm own j && fieldsInObjectForm inlined j
  | .table item, j => j.members.all fun e => inObjectForm item e.2
  | .text, _ | .flag, _ | .integer _, _ | .anything, _ | .bytes, _ | .instant, _ | .choice _, _
  | .list _, _ => true
def fieldsInObjectForm : List (FieldInfo × Schema) → Json → Bool
  | [], _ => true
  | (info, s) :: fields, j => (j.get? info.key).all (inObjectForm s) && fieldsInObjectForm fields j
end

/-- The fields of a document are in object form if those that are there are. -/
theorem fieldsInObjectForm_iff {fields : List (FieldInfo × Schema)} {j : Json} :
    fieldsInObjectForm fields j = true ↔
      ∀ f ∈ fields, ∀ v, j.get? f.1.key = some v → f.2.inObjectForm v = true := by
  induction fields with
  | nil => simp [fieldsInObjectForm]
  | cons f fields ih =>
    obtain ⟨info, s⟩ := f
    simp only [fieldsInObjectForm, Bool.and_eq_true, ih, List.forall_mem_cons]
    cases j.get? info.key <;> simp

/-- Where no record is written as a list, objects are read from objects. -/
theorem isObject_of_decode {s : Schema} {v x : Json} (hform : s.inObjectForm v = true)
    (h : decode .memory s v = .ok x) : x.isObject = v.isObject := by
  -- Scalars and lists are read as such, records and tables as objects
  cases s with
  | text =>
    obtain ⟨t, ht, rfl⟩ := Except.map_ok_iff.1 h
    cases v <;> first | rfl | cases ht
  | instant =>
    simp only [decode, decodeInstant, Except.bind_ok_iff] at h
    obtain ⟨t, ht, h⟩ := h
    split at h <;> cases h
    cases v <;> first | rfl | cases ht
  | anything => cases h; rfl
  | record shape own inlined =>
    rw [isObject_decode_record h]
    cases v with
    | obj ms => rfl
    -- A record could be written as a list, which is what `hform` rules out
    | arr items => simp [inObjectForm] at hform
    | _ => cases h
  | table item => rw [isObject_decode_table h, isObject_of_decode_table h]
  | list item =>
    cases v with
    | arr items =>
      obtain ⟨_, -, rfl⟩ := Except.map_ok_iff.1 h
      rfl
    | _ => cases h
  | _ =>
    cases v <;> simp only [decode, decodeFlag, decodeInteger, decodeBytes, decodeChoice,
      Source.memory] at h <;> (try split at h) <;> (try split at h) <;> cases h <;> rfl

/-- Names that lead through records to a member that no field reads, or below one. -/
inductive Unknown : Schema → List String → Prop
  | here {shape : RecordShape} {own inlined : List (FieldInfo × Schema)} {key : String}
      {names : List String} (hidentity : shape.identified = true → key ≠ "apiVersion" ∧ key ≠ "kind")
      (hrest : shape.keepsRest = false) (hkey : ∀ f ∈ own ++ inlined, f.1.key ≠ key) :
      Unknown (.record shape own inlined) (key :: names)
  | field {shape : RecordShape} {own inlined : List (FieldInfo × Schema)}
      {f : FieldInfo × Schema} {names : List String} (hmem : f ∈ own ++ inlined)
      (h : Unknown f.2 names) : Unknown (.record shape own inlined) (f.1.key :: names)

/-- A document in which a normal form was observed. -/
structure ObservedAs (s : Schema) (raw observed : Json) : Prop where
  reads : decode .memory s raw = .ok observed
  wellFormed : raw.WellFormed
  inObjectForm : s.inObjectForm raw = true

/-- A normal form that can be reached by a patch. -/
structure Desirable (s : Schema) (desired : Json) : Prop where
  reads : decode .memory s desired = .ok desired
  wellFormed : desired.WellFormed
  nullFree : desired.NullFree
  ne_null : desired ≠ .null

/-- A document is read as the desired one, and has kept what the schema does not know. -/
structure Arrives (s : Schema) (raw next desired : Json) : Prop where
  reads : ∃ z, decode .memory s next = .ok z ∧ z.canon = desired.canon
  keeps : ∀ names v, s.Unknown names → raw.at? names = some v → next.at? names = some v

/-- The document after the patch from what was observed in it to what is desired. -/
def steered (raw observed desired : Json) : Json :=
  (change (some observed) desired).elim raw raw.merge

/-- Patches between normal forms lead to what is desired. -/
def Mergeable (s : Schema) : Prop :=
  ∀ ⦃raw observed desired : Json⦄, s.ObservedAs raw observed → s.Desirable desired →
    s.Arrives raw (steered raw observed desired) desired

/-- A member that is there is merged with its change like a document of its own. -/
theorem mergeMember_change_some {observed desired : Json} (raw : Json) (h : desired ≠ .null) :
    mergeMember (some raw) (change (some observed) desired) =
      some (steered raw observed desired) := by
  rw [steered]
  cases hc : change (some observed) desired with
  | none => rfl
  | some p => exact mergeMember_some _ (ne_null_of_change h hc)

/-- Objects are steered by merging the difference of what was observed and what is desired. -/
theorem steered_obj (ms os ds : Entries String Json) :
    steered (.obj ms) (.obj os) (.obj ds) = .obj (mergeMembers ms (difference os ds)) := by
  rw [steered, change_obj_obj]
  split
  · rename_i h
    -- An empty difference is no patch at all
    rw [h]
    rfl
  · rfl

/-- Nothing has to be said about a value that is neither an object nor `null`, or all of it. -/
theorem steered_of_not_isObject (raw observed : Json) {desired : Json}
    (ho : desired.isObject = false) (hn : desired ≠ .null) :
    (observed.canon = desired.canon ∧ steered raw observed desired = raw) ∨
      steered raw observed desired = desired := by
  rw [steered, change_of_not_isObject _ ho hn]
  split
  · rename_i h
    exact Or.inl ⟨Option.some.inj h, rfl⟩
  · exact Or.inr (merge_of_not_isObject raw ho)

/-- No patch between documents that are there makes one `null`. -/
theorem steered_ne_null {raw observed desired : Json} (hr : raw ≠ .null) (hd : desired ≠ .null) :
    steered raw observed desired ≠ .null := by
  rw [steered]
  cases hc : change (some observed) desired with
  | none => exact hr
  | some p =>
    have hp := ne_null_of_change hd hc
    cases p <;> first | exact absurd rfl hp | simp [merge]

/-! ## Schemas of values -/

/-- A schema is mergeable if nothing that it reads is an object. -/
theorem mergeable_of_not_isObject {s : Schema} (hu : ∀ names, ¬ s.Unknown names)
    (h : ∀ v x, decode .memory s v = .ok x → x.isObject = false) : s.Mergeable := by
  intro raw observed desired hraw hdesired
  refine ⟨?_, fun names _ hn => absurd hn (hu names)⟩
  -- Either the document says already what is desired, or it is replaced
  rcases steered_of_not_isObject raw observed (h _ _ hdesired.reads) hdesired.ne_null with
    ⟨hcanon, heq⟩ | heq
  · exact ⟨observed, by rw [heq]; exact hraw.reads, hcanon⟩
  · exact ⟨desired, by rw [heq]; exact hdesired.reads, rfl⟩

/-- Texts are replaced as a whole. -/
theorem mergeable_text : Mergeable .text := by
  refine mergeable_of_not_isObject (fun _ h => by cases h) fun v x h => ?_
  obtain ⟨_, _, rfl⟩ := Except.map_ok_iff.1 h
  rfl

/-- Numbers are replaced as a whole. -/
theorem mergeable_integer (range : IntegerRange) : Mergeable (.integer range) := by
  refine mergeable_of_not_isObject (fun _ h => by cases h) fun v x h => ?_
  simp only [decode, decodeInteger] at h
  split at h <;> (try split at h) <;> cases h
  rfl

/-- Instants are replaced as a whole. -/
theorem mergeable_instant : Mergeable .instant := by
  refine mergeable_of_not_isObject (fun _ h => by cases h) fun v x h => ?_
  simp only [decode, decodeInstant, Except.bind_ok_iff] at h
  obtain ⟨_, -, h⟩ := h
  split at h <;> cases h
  rfl

/-- Lists are replaced as a whole, whatever their items are. -/
theorem mergeable_list (item : Schema) : Mergeable (.list item) := by
  refine mergeable_of_not_isObject (fun _ h => by cases h) fun v x h => ?_
  simp only [decode] at h
  split at h
  · obtain ⟨_, _, rfl⟩ := Except.map_ok_iff.1 h
    rfl
  · cases h

/-- Documents that are kept as they are reach what is desired. -/
theorem mergeable_anything : Mergeable .anything := by
  intro raw observed desired hraw hdesired
  refine ⟨⟨_, rfl, ?_⟩, fun names _ hn => by cases hn⟩
  -- All of the document was observed, so the patch is made from the document itself
  cases hraw.reads
  have hsettled := @canon_mergeMember_change (some raw) desired
    (fun o ho => Option.some.inj ho ▸ hraw.wellFormed) hdesired.wellFormed
  rw [mergeMember_change_some raw hdesired.ne_null, settledMember_some _ hdesired.ne_null,
    hdesired.nullFree.settled hdesired.wellFormed] at hsettled
  exact Option.some.inj hsettled

/-! ## Fields -/

/-- A member in which a normal form was observed. -/
structure FieldObservedAs (f : FieldInfo × Schema) (raw observed : Option Json) : Prop where
  reads : readField f raw = .ok observed
  wellFormed : ∀ v, raw = some v → v.WellFormed
  inObjectForm : ∀ v, raw = some v → f.2.inObjectForm v = true

/-- A normal form of a member that can be reached by a patch. -/
structure FieldDesirable (f : FieldInfo × Schema) (desired : Option Json) : Prop where
  reads : readField f desired = .ok desired
  wellFormed : ∀ v, desired = some v → v.WellFormed
  nullFree : ∀ v, desired = some v → v.NullFree ∧ v ≠ .null

/-- A member is read as the desired one, and has kept what the schema does not know. -/
structure FieldArrives (f : FieldInfo × Schema) (raw next desired : Option Json) : Prop where
  reads : ∃ z, readField f next = .ok z ∧ z.map canon = desired.map canon
  keeps : ∀ names v, f.2.Unknown names → raw.bind (·.at? names) = some v →
    next.bind (·.at? names) = some v

/-- Patches between normal forms lead to what is desired of a member. -/
def FieldMergeable (f : FieldInfo × Schema) : Prop :=
  ∀ ⦃raw observed desired : Option Json⦄, FieldObservedAs f raw observed →
    FieldDesirable f desired →
      FieldArrives f raw (mergeMember raw (changeMember observed desired)) desired

section Fields

variable {key : String} {s : Schema}

/-- A member that is there is patched like the document that it is. -/
private theorem Mergeable.arrives (h : s.Mergeable) {presence : Presence} {v o d : Json}
    {observed : Option Json} (hraw : FieldObservedAs (⟨key, presence⟩, s) (some v) observed)
    (ho : decode .memory s v = .ok o)
    (hdesired : FieldDesirable (⟨key, presence⟩, s) (some d)) (hd : decode .memory s d = .ok d) :
    mergeMember (some v) (changeMember (some o) (some d)) = some (steered v o d) ∧
      s.Arrives v (steered v o d) d := by
  obtain ⟨hfree, hnull⟩ := hdesired.nullFree d rfl
  exact ⟨mergeMember_change_some v hnull, h ⟨ho, hraw.wellFormed v rfl, hraw.inObjectForm v rfl⟩
    ⟨hd, hdesired.wellFormed d rfl, hfree, hnull⟩⟩

/-- A field that has to be there is there on both sides, and is mergeable if its schema is. -/
theorem Mergeable.required (h : s.Mergeable) : FieldMergeable (⟨key, .required⟩, s) := by
  intro raw observed desired hraw hdesired
  obtain ⟨v, o, rfl, ho, rfl⟩ := readField_required.1 hraw.reads
  obtain ⟨d, _, rfl, hd, heq⟩ := readField_required.1 hdesired.reads
  cases heq
  obtain ⟨hmerged, ⟨z, hz, hcanon⟩, hkeeps⟩ := h.arrives hraw ho hdesired hd
  rw [hmerged]
  refine ⟨⟨some z, readField_required.2 ⟨_, z, rfl, hz, rfl⟩, congrArg some hcanon⟩, ?_⟩
  intro names u hu hat
  exact hkeeps names u hu hat

/-- A field that may be absent is mergeable if its schema is, and knows all of it. -/
theorem Mergeable.optional (h : s.Mergeable) (hu : ∀ names, ¬ s.Unknown names) :
    FieldMergeable (⟨key, .optional⟩, s) := by
  intro raw observed desired hraw hdesired
  refine ⟨?_, fun names _ hn => absurd hn (hu names)⟩
  rcases readField_optional.1 hdesired.reads with ⟨-, rfl⟩ | ⟨d, _, rfl, hnull, hd, heq⟩
  · -- The member is to go, unless it counts as absent
    refine ⟨none, readField_optional.2 (Or.inl ⟨?_, rfl⟩), rfl⟩
    rcases readField_optional.1 hraw.reads with ⟨habsent, rfl⟩ | ⟨v, o, rfl, -, -, rfl⟩
    · exact habsent
    · rfl
  · cases heq
    rcases readField_optional.1 hraw.reads with ⟨habsent, rfl⟩ | ⟨v, o, rfl, hv, ho, rfl⟩
    · -- Nothing is observed, so the patch has the desired value as a whole
      refine ⟨some d, ?_, rfl⟩
      rw [(hdesired.nullFree d rfl).1.mergeMember_new (hdesired.wellFormed d rfl) hnull
        (by rw [habsent]; rfl)]
      exact readField_optional.2 (Or.inr ⟨d, d, rfl, hnull, hd, rfl⟩)
    · -- Both are there, and the member is patched like a document of its own
      obtain ⟨hmerged, ⟨z, hz, hcanon⟩, -⟩ := h.arrives hraw ho hdesired hd
      rw [hmerged]
      exact ⟨some z, readField_optional.2
        (Or.inr ⟨_, z, rfl, steered_ne_null hv hnull, hz, rfl⟩), congrArg some hcanon⟩

/-- The absence of a field may stand for what an empty object is read as, or for a value that is
replaced as a whole. -/
theorem Mergeable.defaulted {value : Json} (h : s.Mergeable) (hw : value.WellFormed)
    (hvalue : decode .memory s (.obj []) = .ok value ∧ s.inObjectForm (.obj []) = true ∨
      ∀ d : Json, d.WellFormed → decode .memory s d = .ok d →
        change (some value) d = none ∨ change (some value) d = some d) :
    FieldMergeable (⟨key, .defaulted value true⟩, s) := by
  intro raw observed desired hraw hdesired
  -- A desired member is there, even if only as the default.
  obtain ⟨d, rfl, hd⟩ : ∃ d, desired = some d ∧ decode .memory s d = .ok d := by
    rcases readField_defaulted.1 hdesired.reads with ⟨rfl, heq⟩ | ⟨d, _, rfl, hd, heq⟩
    · cases heq
    · simp only [Bool.not_true, Bool.false_eq_true, and_false, if_false] at heq
      cases heq
      exact ⟨d, rfl, hd⟩
  have hsome : ∀ {v z}, decode .memory s v = .ok z →
      readField (⟨key, .defaulted value true⟩, s) (some v) = .ok (some z) := fun hz =>
    readField_defaulted.2 (Or.inr ⟨_, _, rfl, hz, by simp⟩)
  obtain ⟨hfree, hnull⟩ := hdesired.nullFree d rfl
  have hwf := hdesired.wellFormed d rfl
  rcases readField_defaulted.1 hraw.reads with ⟨rfl, rfl⟩ | ⟨v, o, rfl, ho, rfl⟩
  · -- The member is absent, so the patch says how `value` changes
    refine ⟨?_, fun names v _ hat => by cases hat⟩
    have hnone : readField (⟨key, .defaulted value true⟩, s) none = .ok (some value) :=
      readField_defaulted.2 (Or.inl ⟨rfl, rfl⟩)
    simp only [if_true, changeMember_some]
    rcases hvalue with ⟨hempty, hform⟩ | hwhole
    · -- An empty object in its place would be patched in the same way
      obtain ⟨⟨z, hz, hcanon⟩, -⟩ := h ⟨hempty, by decide, hform⟩ ⟨hd, hwf, hfree, hnull⟩
      rw [steered] at hz
      cases hc : change (some value) d with
      | none =>
        rw [hc, Option.elim_none, hempty] at hz
        cases hz
        exact ⟨some value, hnone, congrArg some hcanon⟩
      | some p =>
        rw [hc, Option.elim_some, merge_congr (i := .obj []) (j := .null) rfl] at hz
        rw [mergeMember_some _ (ne_null_of_change hnull hc)]
        exact ⟨some z, hsome hz, congrArg some hcanon⟩
    · -- Either `value` is what is desired, or the patch has the desired value as a whole
      rcases hwhole d hwf hd with hc | hc
      · have hsettled := @canon_mergeMember_change (some value) d
          (fun o ho => Option.some.inj ho ▸ hw) hwf
        rw [hc, settledMember_some _ hnull, hfree.settled hwf] at hsettled
        rw [hc]
        exact ⟨some value, hnone, hsettled⟩
      · rw [hc, mergeMember_some _ hnull, hfree.merge_eq hwf rfl]
        exact ⟨some d, hsome hd, rfl⟩
  · -- The member is there, so it is patched like a document of its own
    simp only [Bool.not_true, Bool.false_eq_true, and_false, if_false]
    obtain ⟨heq, ⟨z, hz, hcanon⟩, hkeeps⟩ := h.arrives hraw ho hdesired hd
    rw [heq]
    exact ⟨⟨some z, hsome hz, congrArg some hcanon⟩, fun names u hu hat => hkeeps names u hu hat⟩

/-- An absent field is not written if its default is left out. -/
private theorem readField_omitted_none {value : Json} :
    readField (⟨key, .defaulted value false⟩, s) none = .ok none :=
  readField_defaulted.2 (Or.inl ⟨rfl, rfl⟩)

/-- A field is written if it is not read as the default that is left out. -/
private theorem readField_omitted_some {value v z : Json} (h : decode .memory s v = .ok z)
    (hz : z ≠ value) : readField (⟨key, .defaulted value false⟩, s) (some v) = .ok (some z) :=
  readField_defaulted.2 (Or.inr ⟨v, z, rfl, h, by simp [hz]⟩)

/-- A field that is removed is not written any more, whatever was observed of it. -/
private theorem readField_removed {value : Json} {raw observed : Option Json}
    (h : readField (⟨key, .defaulted value false⟩, s) raw = .ok observed) :
    readField (⟨key, .defaulted value false⟩, s) (mergeMember raw (changeMember observed none)) =
      .ok none := by
  rcases readField_defaulted.1 h with ⟨rfl, rfl⟩ | ⟨v, o, rfl, ho, rfl⟩
  · exact readField_omitted_none
  · by_cases heq : o = value
    · -- Nothing was observed, so the member stays, and is not written again
      exact readField_defaulted.2 (Or.inr ⟨v, o, by simp [heq, changeMember], ho, by simp [heq]⟩)
    · rw [if_neg (by simp [heq])]
      exact readField_omitted_none

/-- A field that is not written with the value that its absence stands for. -/
theorem Mergeable.omitted {value : Json} (h : s.Mergeable) (hu : ∀ names, ¬ s.Unknown names)
    (hobject : value.isObject = false) (hcanon : ∀ x : Json, x.canon = value.canon → x = value) :
    FieldMergeable (⟨key, .defaulted value false⟩, s) := by
  intro raw observed desired hraw hdesired
  refine ⟨?_, fun names _ hn => absurd hn (hu names)⟩
  rcases readField_defaulted.1 hdesired.reads with ⟨rfl, -⟩ | ⟨d, x, rfl, hd, heq⟩
  · -- The member is to go, unless what it is read as is not written
    exact ⟨none, readField_removed hraw.reads, rfl⟩
  · obtain ⟨hne, rfl⟩ : x ≠ value ∧ x = d := by
      by_cases hx : x = value
      · simp [hx] at heq
      · simpa [hx, eq_comm] using heq
    obtain ⟨hfree, hnull⟩ := hdesired.nullFree x rfl
    have hwf := hdesired.wellFormed x rfl
    -- What is desired is not the value that is left out, so it is written where it is read
    have hwhole : readField (⟨key, .defaulted value false⟩, s) (some x) = .ok (some x) :=
      readField_omitted_some hd hne
    rcases readField_defaulted.1 hraw.reads with ⟨rfl, rfl⟩ | ⟨v, o, rfl, ho, rfl⟩
    · rw [if_neg (by simp), hfree.mergeMember_new hwf hnull rfl]
      exact ⟨some x, hwhole, rfl⟩
    · by_cases hov : o = value
      · -- What is not written is no object, so the desired value replaces it
        have hv : v.isObject = false := by
          rw [← isObject_of_decode (hraw.inObjectForm v rfl) ho, hov, hobject]
        rw [if_pos (by simp [hov]),
          @NullFree.mergeMember_new (some v) x hfree hwf hnull (members_of_not_isObject hv)]
        exact ⟨some x, hwhole, rfl⟩
      · rw [if_neg (by simp [hov])] at hraw ⊢
        obtain ⟨heq, ⟨z, hz, hzcanon⟩, -⟩ := h.arrives hraw ho hdesired hd
        rw [heq]
        refine ⟨some z, readField_omitted_some hz fun hzv => hne (hcanon x ?_),
          congrArg some hzcanon⟩
        rw [← hzcanon, hzv]

end Fields

/-! ## Records -/

section Record

variable {shape : RecordShape} {own inlined : List (FieldInfo × Schema)}
  {ms os ds : Entries String Json}

/-- A field observed in an object in which a record was observed. -/
theorem ObservedAs.field (hd : Separate shape own inlined)
    (h : ObservedAs (.record shape own inlined) (.obj ms) (.obj os)) {f : FieldInfo × Schema}
    (hf : f ∈ own ++ inlined) :
    FieldObservedAs f (Entries.get? ms f.1.key) (Entries.get? os f.1.key) where
  reads := by
    obtain ⟨_, heq, hreads⟩ := of_decode_record h.wellFormed.sorted hd h.reads
    cases heq
    exact hreads.field f hf
  wellFormed _ hv := h.wellFormed.member hv
  inObjectForm v hv := by
    have hform := h.inObjectForm
    simp only [Schema.inObjectForm, Bool.and_eq_true, fieldsInObjectForm_iff] at hform
    rcases List.mem_append.1 hf with hf | hf
    · exact hform.1.2 f hf v hv
    · exact hform.2 f hf v hv

/-- A field of a record that can be reached by a patch. -/
theorem Desirable.field (hd : Separate shape own inlined)
    (h : Desirable (.record shape own inlined) (.obj ds)) {f : FieldInfo × Schema}
    (hf : f ∈ own ++ inlined) : FieldDesirable f (Entries.get? ds f.1.key) where
  reads := by
    obtain ⟨_, heq, hreads⟩ := of_decode_record h.wellFormed.sorted hd h.reads
    cases heq
    exact hreads.field f hf
  wellFormed _ hv := h.wellFormed.member hv
  nullFree _ hv := NullFree.get? (j := .obj ds) h.nullFree hv

/-- In object form, a record was observed in an object. -/
theorem ObservedAs.exists_obj {raw observed : Json}
    (h : ObservedAs (.record shape own inlined) raw observed) :
    ∃ ms os, raw = .obj ms ∧ observed = .obj os := by
  obtain ⟨os, rfl⟩ := isObject_iff.1 (isObject_decode_record h.reads)
  -- The record is an object, and so is the document that it was read from
  obtain ⟨ms, rfl⟩ := isObject_iff.1 (isObject_of_decode h.inObjectForm h.reads).symm
  exact ⟨ms, os, rfl, rfl⟩

/-- Members that no field reads are not there in what is read. -/
private theorem ReadsTo.get?_other (hi : shape.identified = false) (hk : shape.keepsRest = false)
    {xs : Entries String Json} (h : ReadsTo shape own inlined ms xs) {k : String}
    (hother : ∀ f ∈ own ++ inlined, f.1.key ≠ k) : Entries.get? xs k = none :=
  (h.other k hother).trans (get?_assemble_of_drops hi hk _ _)

section Patched

variable (hi : shape.identified = false) (hk : shape.keepsRest = false)
  (hd : Separate shape own inlined) (keys : List String) {patch : Entries String Json}
  (hpatch : Entries.Sorted patch)
  (hget : ∀ k, Entries.get? patch k =
    if k ∈ keys then none else changeMember (Entries.get? os k) (Entries.get? ds k))
  (hf : ∀ f ∈ own ++ inlined, f.1.key ∉ keys → FieldMergeable f)
  (hraw : ObservedAs (.record shape own inlined) (.obj ms) (.obj os))
  (hdesired : Desirable (.record shape own inlined) (.obj ds))
include hd hpatch hget hraw

omit hd in
/-- A patch that leaves out a key leaves its member as it is. -/
private theorem get?_patched_left {k : String} (hkey : k ∈ keys) :
    Entries.get? (mergeMembers ms patch) k = Entries.get? ms k := by
  rw [get?_mergeMembers hraw.wellFormed.sorted hpatch, hget, if_pos hkey, mergeMember_none]

include hf hdesired

/-- A field whose key is not left out becomes what is desired of it. -/
private theorem arrives_patched {f : FieldInfo × Schema} (hfm : f ∈ own ++ inlined)
    (hkey : f.1.key ∉ keys) :
    FieldArrives f (Entries.get? ms f.1.key) (Entries.get? (mergeMembers ms patch) f.1.key)
      (Entries.get? ds f.1.key) := by
  rw [get?_mergeMembers hraw.wellFormed.sorted hpatch, hget, if_neg hkey]
  exact hf f hfm hkey (hraw.field hd hfm) (hdesired.field hd hfm)

include hi hk

/-- What the fields do not know is not read, so the patch is silent about it. -/
private theorem at?_patched_unlisted {names : List String} {v : Json}
    (hn : Unknown (.record shape own inlined) names) (hv : (Json.obj ms).at? names = some v) :
    (Json.obj (mergeMembers ms patch)).at? names = some v := by
  obtain ⟨_, heq, hos⟩ := of_decode_record hraw.wellFormed.sorted hd hraw.reads
  cases heq
  obtain ⟨_, heq, hds⟩ := of_decode_record hdesired.wellFormed.sorted hd hdesired.reads
  cases heq
  cases hn with
  | @here _ _ _ key names _ _ hkey =>
    -- Neither side has the member in what is read of it
    have hsilent : Entries.get? patch key = none := by
      rw [hget, hos.get?_other hi hk hkey, hds.get?_other hi hk hkey]
      split <;> rfl
    rw [at?_cons, get?_obj, get?_mergeMembers hraw.wellFormed.sorted hpatch, hsilent,
      mergeMember_none]
    exact hv
  | @field _ _ _ f names hfm hu =>
    rw [at?_cons, get?_obj] at hv ⊢
    -- The place is below a field, which is left out or keeps what it does not know
    by_cases hkey : f.1.key ∈ keys
    · rw [get?_patched_left keys hpatch hget hraw hkey]
      exact hv
    · exact (arrives_patched hd keys hpatch hget hf hraw hdesired hfm hkey).keeps names v hu hv

/-- An object is read after a patch that leaves out some keys: these stay as they were observed, and
the others become what is desired. -/
theorem exists_decode_patched :
    ∃ xs, decode .memory (.record shape own inlined) (.obj (mergeMembers ms patch)) =
        .ok (.obj xs) ∧ Entries.Sorted xs ∧
      (∀ k, if k ∈ keys then Entries.get? xs k = Entries.get? os k
        else (Entries.get? xs k).map canon = (Entries.get? ds k).map canon) ∧
      ∀ names v, Unknown (.record shape own inlined) names →
        (Json.obj ms).at? names = some v →
        (Json.obj (mergeMembers ms patch)).at? names = some v := by
  have hms := hraw.wellFormed.sorted
  obtain ⟨_, heq, hos⟩ := of_decode_record hms hd hraw.reads
  cases heq
  obtain ⟨_, heq, hds⟩ := of_decode_record hdesired.wellFormed.sorted hd hdesired.reads
  cases heq
  have hnext : Entries.Sorted (mergeMembers ms patch) := sorted_mergeMembers hms
  have hleft : ∀ {k}, k ∈ keys → Entries.get? (mergeMembers ms patch) k = Entries.get? ms k :=
    get?_patched_left keys hpatch hget hraw
  have harrives : ∀ f ∈ own ++ inlined, f.1.key ∉ keys → FieldArrives f (Entries.get? ms f.1.key)
      (Entries.get? (mergeMembers ms patch) f.1.key) (Entries.get? ds f.1.key) :=
    fun _ => arrives_patched hd keys hpatch hget hf hraw hdesired
  -- Every field can be read again: one left out as before, any other as it arrives
  obtain ⟨xs, hxs, hreads⟩ := exists_decode_record hnext hd fun f hfm => by
    by_cases hkey : f.1.key ∈ keys
    · exact ⟨_, hleft hkey ▸ hos.field f hfm⟩
    · obtain ⟨z, hz, -⟩ := (harrives f hfm hkey).reads
      exact ⟨z, hz⟩
  refine ⟨xs, hxs, hreads.sorted, fun k => ?_, fun names v hn hv =>
    at?_patched_unlisted hi hk hd keys hpatch hget hf hraw hdesired hn hv⟩
  -- What is read under a key is that of a field, or nothing
  by_cases hlisted : ∃ f ∈ own ++ inlined, f.1.key = k
  · obtain ⟨f, hfm, rfl⟩ := hlisted
    have hx := hreads.field f hfm
    split
    · rename_i hkey
      rw [hleft hkey, hos.field f hfm] at hx
      exact (Except.ok.inj hx).symm
    · rename_i hkey
      obtain ⟨z, hz, hcanon⟩ := (harrives f hfm hkey).reads
      cases hx.symm.trans hz
      exact hcanon
  · have hother : ∀ f ∈ own ++ inlined, f.1.key ≠ k := fun f hfm heq => hlisted ⟨f, hfm, heq⟩
    rw [hreads.get?_other hi hk hother, hos.get?_other hi hk hother,
      hds.get?_other hi hk hother]
    split <;> rfl

end Patched

/-- A record is mergeable if its fields are. -/
theorem Mergeable.record (hi : shape.identified = false) (hk : shape.keepsRest = false)
    (hd : DistinctKeys (own ++ inlined)) (hf : ∀ f ∈ own ++ inlined, FieldMergeable f) :
    Mergeable (.record shape own inlined) := by
  intro raw observed desired hraw hdesired
  obtain ⟨ms, os, rfl, rfl⟩ := hraw.exists_obj
  obtain ⟨ds, rfl⟩ := isObject_iff.1 (isObject_decode_record hdesired.reads)
  have hds := hdesired.wellFormed.sorted
  -- This patch leaves out no key
  obtain ⟨xs, hxs, hsorted, hget, hkeeps⟩ := exists_decode_patched hi hk ⟨hd, Or.inr ⟨hi, hk⟩⟩
    [] (sorted_difference os ds) (fun k => by simp [get?_difference os hds])
    (fun f hfm _ => hf f hfm) hraw hdesired
  rw [steered_obj]
  refine ⟨⟨_, hxs, (canon_obj_eq hsorted hds).2 fun k => ?_⟩, hkeeps⟩
  have h := hget k
  rwa [if_neg List.not_mem_nil] at h

end Record

/-! ## Tables -/

/-- A member of a table becomes what is desired of it. -/
private theorem Mergeable.member {item : Schema} (h : item.Mergeable)
    {raw observed desired : Option Json} (hraw : readMember item raw = .ok observed)
    (hw : ∀ v, raw = some v → v.WellFormed ∧ item.inObjectForm v = true)
    (hdesired : readMember item desired = .ok desired)
    (hd : ∀ v, desired = some v → v.WellFormed ∧ v.NullFree ∧ v ≠ .null) :
    ∃ z, readMember item (mergeMember raw (changeMember observed desired)) = .ok z ∧
      z.map canon = desired.map canon := by
  cases desired with
  | none =>
    -- Nothing is desired: the member is removed if it is there
    refine ⟨none, ?_, rfl⟩
    cases raw with
    | none =>
      cases hraw
      rfl
    | some v =>
      obtain ⟨o, -, rfl⟩ := readMember_some.1 hraw
      rfl
  | some d =>
    obtain ⟨hwf, hfree, hnull⟩ := hd d rfl
    obtain ⟨_, hread, heq⟩ := readMember_some.1 hdesired
    cases heq
    cases raw with
    | none =>
      cases hraw
      -- The member is new, so the patch has it as a whole
      rw [hfree.mergeMember_new hwf hnull rfl]
      exact ⟨some d, hdesired, rfl⟩
    | some v =>
      obtain ⟨hv, hform⟩ := hw v rfl
      obtain ⟨o, ho, rfl⟩ := readMember_some.1 hraw
      obtain ⟨⟨z, hz, hcanon⟩, -⟩ := h ⟨ho, hv, hform⟩ ⟨hread, hwf, hfree, hnull⟩
      rw [changeMember_some, mergeMember_change_some v hnull]
      exact ⟨some z, readMember_some.2 ⟨z, hz, rfl⟩, congrArg some hcanon⟩

/-- A table is mergeable if its items are. -/
theorem Mergeable.table {item : Schema} (h : item.Mergeable) : Mergeable (.table item) := by
  intro raw observed desired hraw hdesired
  obtain ⟨ms, rfl⟩ := isObject_iff.1 (isObject_of_decode_table hraw.reads)
  obtain ⟨ds, rfl⟩ := isObject_iff.1 (isObject_of_decode_table hdesired.reads)
  have hms := hraw.wellFormed.sorted
  have hds := hdesired.wellFormed.sorted
  obtain ⟨os, rfl, -, hos⟩ := of_decode_table hms hraw.reads
  obtain ⟨_, heq, -, hdr⟩ := of_decode_table hds hdesired.reads
  cases heq
  -- A table knows all keys, so there is nothing that it has to keep
  refine ⟨?_, fun names _ hn _ => by cases hn⟩
  have hnext : Entries.Sorted (mergeMembers ms (difference os ds)) := sorted_mergeMembers hms
  -- Under each key the desired member is read, or none if none is desired
  have hmember : ∀ k, ∃ z,
      readMember item (Entries.get? (mergeMembers ms (difference os ds)) k) = .ok z ∧
        z.map canon = (Entries.get? ds k).map canon := by
    intro k
    rw [get?_mergeMembers hms (sorted_difference os ds), get?_difference os hds]
    exact h.member (hos k)
      (fun v hv => ⟨hraw.wellFormed.member hv,
        List.all_eq_true.1 hraw.inObjectForm _ (Entries.mem_of_get? hv)⟩) (hdr k)
      fun v hv => ⟨hdesired.wellFormed.member hv, NullFree.get? (j := .obj ds) hdesired.nullFree hv⟩
  have hread : ∀ k v, Entries.get? (mergeMembers ms (difference os ds)) k = some v →
      ∃ w, decode .memory item v = .ok w := by
    intro k v hv
    obtain ⟨z, hz, -⟩ := hmember k
    rw [hv] at hz
    obtain ⟨w, hw, -⟩ := readMember_some.1 hz
    exact ⟨w, hw⟩
  obtain ⟨x, hx⟩ := exists_decode_table hread hnext
  obtain ⟨xs, rfl, hxs, hxr⟩ := of_decode_table hnext hx
  rw [steered_obj]
  refine ⟨_, hx, (canon_obj_eq hxs hds).2 fun k => ?_⟩
  obtain ⟨z, hz, hcanon⟩ := hmember k
  cases (hxr k).symm.trans hz
  exact hcanon

end Schema

end BuilderControl
