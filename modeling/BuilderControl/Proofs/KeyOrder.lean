import BuilderControl.Order
import BuilderControl.Resource
import BuilderControl.Proofs.Ensures

/-!
# What is read is in key order

Whatever a source holds, a document that is read by a schema lists the members of its objects in
key order, as long as documents that are taken as a whole do.

## Key results

- `Schema.wellFormed_decode`: documents that are read are well-formed
- `Resource.wellFormed_ofJson`: objects read from well-formed documents are well-formed
- `Order.wellFormed_ofFile`: so are the entries of order files
-/

namespace BuilderControl

/-- An object that is made from bindings is in key order, so its values decide whether it is
well-formed. -/
theorem Json.wellFormed_object {bindings : List (String × Json)}
    (h : ∀ e ∈ bindings, e.2.WellFormed) : (Json.object bindings).WellFormed := by
  refine wellFormed_obj.2 ⟨Entries.sorted_ofList bindings, fun k v hg => ?_⟩
  rw [Entries.get?_ofList] at hg
  exact h _ (List.mem_reverse.1 (Entries.mem_of_get? hg))

/-- Parts of good values are good, and good values are well-formed as a whole. -/
structure Source.Sound {ν : Type} (src : Source ν) (good : ν → Prop) : Prop where
  items : ∀ {v xs done}, good v → src.layer v = .list xs done → ∀ x ∈ xs, good x
  members : ∀ {v ms done key w before after}, good v → src.layer v = .map ms done →
    .entry key w before after ∈ ms → good w
  whole : ∀ {v x}, good v → src.whole v = .ok x → x.WellFormed

/-- What was set aside of good values is good. -/
theorem Source.Sound.buffered {ν : Type} {src : Source ν} {good : ν → Prop} (h : src.Sound good) :
    src.buffered.Sound good where
  items := by
    intro v xs done hv hlayer
    simp only [Source.buffered] at hlayer
    cases hl : src.layer v <;> simp only [hl, Layer.bare] at hlayer <;> cases hlayer
    exact h.items hv hl
  members := by
    intro v ms done key w before after hv hlayer hm
    simp only [Source.buffered] at hlayer
    cases hl : src.layer v <;> simp only [hl, Layer.bare] at hlayer <;> cases hlayer
    obtain ⟨m, hm', heq⟩ := List.mem_map.1 hm
    cases m <;> cases heq
    exact h.members hv hl hm'
  whole := h.whole

/-- In memory, documents in key order are good. -/
theorem Source.sound_memory : Source.memory.Sound Json.WellFormed where
  items := by
    intro v xs done hv hlayer
    cases v <;> cases hlayer
    exact hv.item
  members := by
    intro v ms done key w before after hv hlayer hm
    cases v <;> cases hlayer
    obtain ⟨e, he, heq⟩ := List.mem_map.1 hm
    cases heq
    -- In key order, each entry is what is found under its key
    exact hv.member (hv.sorted.get?_of_mem (v := e.2) he)
  whole := by
    intro v x hv h
    cases h
    exact hv

namespace Schema

/-! ## Values that stand for absent fields -/

mutual
/-- All values that stand for absent fields are in key order. -/
def defaultsInOrder : Schema → Bool
  | .list item => defaultsInOrder item
  | .table item => defaultsInOrder item
  | .record _ own inlined => fieldDefaultsInOrder own && fieldDefaultsInOrder inlined
  | .text | .flag | .integer _ | .anything | .bytes | .instant | .choice _ => true
def fieldDefaultsInOrder : List (FieldInfo × Schema) → Bool
  | [] => true
  | (info, s) :: fields =>
    info.presence.value?.all (fun v => decide v.WellFormed) && defaultsInOrder s &&
      fieldDefaultsInOrder fields
end

/-- The values that stand for absent fields are checked field by field. -/
theorem fieldDefaultsInOrder_iff {fields : List (FieldInfo × Schema)} :
    fieldDefaultsInOrder fields = true ↔ ∀ f ∈ fields,
      (∀ v, f.1.presence.value? = some v → v.WellFormed) ∧ f.2.defaultsInOrder = true := by
  induction fields with
  | nil => simp [fieldDefaultsInOrder]
  | cons f fields ih =>
    obtain ⟨info, s⟩ := f
    simp only [fieldDefaultsInOrder, Bool.and_eq_true, ih, List.forall_mem_cons]
    cases info.presence.value? <;> simp

/-! ## Values of records -/

/-- All values of some members are well-formed. -/
def ValuesWellFormed (ms : List (String × Json)) : Prop := ∀ e ∈ ms, e.2.WellFormed

/-- A value that is well-formed, if there is one. -/
def GivenWellFormed (_ : FieldInfo × Schema) (given : Option Json) : Prop :=
  ∀ w, given = some w → w.WellFormed

/-- What some fields read, and what they have instead of a value, is well-formed. -/
def FieldsWellFormed {ν : Type} (src : Source ν) (good : ν → Prop)
    (fields : List (FieldInfo × Schema)) : Prop :=
  ∀ f ∈ fields, (∀ v, f.1.presence.value? = some v → v.WellFormed) ∧
    ∀ v, good v → Except.Ensures (decode src f.2 v) Json.WellFormed

/-- Members that are written from well-formed values have well-formed values. -/
theorem Written.valuesWellFormed {fields : List (FieldInfo × Schema)}
    {members : List (String × Json)} (h : Written GivenWellFormed fields members) :
    ValuesWellFormed members := by
  induction h with
  | nil => simp [ValuesWellFormed]
  | absent _ _ ih => exact ih
  | present hf _ ih => exact List.forall_mem_cons.2 ⟨hf _ rfl, ih⟩

/-- Fields that read well-formed values write well-formed values. -/
theorem FieldsWellFormed.ensures {ν : Type} {src : Source ν} {good : ν → Prop}
    {fields : List (FieldInfo × Schema)} (h : FieldsWellFormed src good fields) :
    FieldsEnsure src good GivenWellFormed GivenWellFormed fields where
  read := by
    rintro f hf v hv _ hread w rfl
    -- A value that is given is what was read, or stands for it
    rcases eq_of_readGiven_ok hread with hread | hvalue
    · exact (h f hf).2 v hv w hread
    · exact (h f hf).1 w hvalue
  absent _ _ _ hw := nomatch hw
  sameKey _ _ _ _ _ _ hgiven := hgiven
  settle := by
    rintro f hf given hgiven _ hsettle w rfl
    -- A value that is written is what was given, or stands for it
    rcases eq_of_settle_ok hsettle with hw | hvalue
    · exact hgiven w hw
    · exact (h f hf).1 w hvalue

/-- Two lists of well-formed values make one. -/
theorem ValuesWellFormed.append {xs ys : List (String × Json)} (hx : ValuesWellFormed xs)
    (hy : ValuesWellFormed ys) : ValuesWellFormed (xs ++ ys) := by
  intro e he
  rcases List.mem_append.1 he with he | he
  · exact hx e he
  · exact hy e he

/-- A record that is assembled of well-formed values is well-formed. -/
theorem wellFormed_assemble {shape : RecordShape} {rest fields : List (String × Json)}
    (hr : ValuesWellFormed rest) (hf : ValuesWellFormed fields) :
    (assemble shape rest fields).WellFormed := by
  have hleft : ValuesWellFormed (takeIdentity rest none none).2 := fun e he =>
    hr e ((takeIdentity_snd_sublist rest none none).subset he)
  simp only [assemble]
  refine Json.wellFormed_object (ValuesWellFormed.append (ValuesWellFormed.append ?_ ?_) hf)
  · -- What is left over, with the identity taken from it or not, or not kept at all
    split
    · split
      · exact hleft
      · exact hr
    · simp [ValuesWellFormed]
  · -- The members of an identity are texts
    split
    · intro e he
      simp only [List.mem_cons, List.not_mem_nil, or_false] at he
      rcases he with rfl | rfl <;> trivial
    · simp [ValuesWellFormed]

/-! ## Documents -/

/-- What is read is in key order. -/
theorem wellFormed_decode {ν : Type} {src : Source ν} {good : ν → Prop} (hsrc : src.Sound good)
    {s : Schema} (hs : s.defaultsInOrder = true) {v : ν} (hv : good v) :
    Except.Ensures (decode src s v) Json.WellFormed := by
  -- The induction is on the schema, for all sources: further fields are read from a buffered one
  induction s using byFields generalizing src v with
  | text => exact Except.Ensures.map (P := fun _ => True) (fun _ _ => trivial) fun _ _ => trivial
  | anything => exact fun x h => hsrc.whole hv h
  | instant =>
    intro x h
    simp only [decode, decodeInstant, Except.bind_ok_iff] at h
    obtain ⟨text, -, h⟩ := h
    split at h <;> cases h
    trivial
  | list item ih =>
    simp only [decode]
    split
    · rename_i items done hlayer
      exact (Except.Ensures.mapM fun w hw => ih hsrc hs (hsrc.items hv hlayer w hw)).map
        fun ys hys => Json.wellFormed_arr hys
    · intro _ h; cases h
  | table item ih =>
    simp only [decode]
    split
    · rename_i members done hlayer
      refine (Except.Ensures.mapM (Q := fun e : String × Json => e.2.WellFormed) fun m hm => ?_).bind
        fun es hes => ?_
      · cases m with
        | entry key w before after =>
          exact (ih hsrc hs (hsrc.members hv hlayer hm)).map fun x hx => hx
        | fault e => intro _ h; cases h
      · intro _ h
        cases h
        exact Json.wellFormed_object hes
    · intro _ h; cases h
  | record shape own inlined iho ihi =>
    simp only [defaultsInOrder, Bool.and_eq_true, fieldDefaultsInOrder_iff] at hs
    have hown : FieldsWellFormed src good own := fun f hf =>
      ⟨(hs.1 f hf).1, fun _ => iho f hf hsrc (hs.1 f hf).2⟩
    have hinlined : FieldsWellFormed src.buffered good inlined := fun f hf =>
      ⟨(hs.2 f hf).1, fun _ => ihi f hf hsrc.buffered (hs.2 f hf).2⟩
    intro x hx
    -- A record is assembled of members or of items, and these are written from well-formed values
    cases hown.ensures.decode_record hinlined.ensures (fun _ hv _ => hsrc.whole hv)
      (fun _ _ _ _ _ _ => hsrc.members hv) (fun _ _ => hsrc.items hv) x hx with
    | ofMembers hrest hmore hmembers =>
      exact wellFormed_assemble (fun e he => (hrest e he).1)
        (hmore.valuesWellFormed.append hmembers.valuesWellFormed)
    | ofItems _ hmembers => exact Json.wellFormed_object hmembers.valuesWellFormed
  | _ =>
    -- The other types are written as scalars
    intro x h
    simp only [decode, decodeFlag, decodeInteger, decodeBytes, decodeChoice] at h
    split at h <;> (try split at h) <;> cases h <;> trivial

end Schema

/-! ## Objects and order files -/

/-- No schema of a type has a default that is out of order. -/
theorem Resource.defaultsInOrder_schemaOf (type : Option ResourceType) :
    (schemaOf type).defaultsInOrder = true := by
  cases type with
  | none => decide
  | some t => cases t <;> decide

/-- An object is read by the schema of its type, which it is given as it is. -/
theorem Resource.ofJson_ok_iff {type : Option ResourceType} {j : Json} {r : Resource} :
    ofJson type j = .ok r ↔
      r.type = type ∧ (schemaOf type).decode .memory j = .ok r.document := by
  rw [ofJson, read, Except.map_ok_iff]
  constructor
  · rintro ⟨x, hx, rfl⟩
    exact ⟨rfl, hx⟩
  · rintro ⟨rfl, hx⟩
    exact ⟨_, hx, rfl⟩

/-- An object of a known type is read by the schema of this type. -/
theorem Resource.ofJson_eq_ok_iff {type : ResourceType} {j : Json} {r : Resource} :
    ofJson (some type) j = .ok r ↔
      r.type = some type ∧ type.schema.decode .memory j = .ok r.document :=
  ofJson_ok_iff

/-- The document of an object is an object. -/
theorem Resource.isObject_ofJson {type : Option ResourceType} {j : Json} {r : Resource}
    (h : ofJson type j = .ok r) : r.document.isObject = true := by
  obtain ⟨-, hread⟩ := ofJson_ok_iff.1 h
  cases type with
  | none => exact Schema.isObject_decode_record hread
  | some t => cases t <;> exact Schema.isObject_decode_record hread

/-- Objects that are read from documents in key order are in key order. -/
theorem Resource.wellFormed_ofJson {type : Option ResourceType} {j : Json} {r : Resource}
    (hj : j.WellFormed) (h : ofJson type j = .ok r) : r.document.WellFormed := by
  obtain ⟨x, hx, rfl⟩ := Except.map_ok_iff.1 h
  exact Schema.wellFormed_decode Source.sound_memory (defaultsInOrder_schemaOf type) hj x hx

/-- What is taken as a whole from a YAML document is in key order, however deep it goes. -/
theorem Yaml.wellFormed_whole (anchors : Yaml.Anchors) (depth : Nat) (r : Yaml.Reached) :
    Except.Ensures (r.whole anchors depth) Json.WellFormed := by
  induction depth generalizing r with
  | zero => intro _ h; cases h
  | succ depth ih =>
    simp only [Yaml.Reached.whole]
    split
    case h_5 items done hlayer =>
      exact (Except.Ensures.mapM fun item _ => ih item).map fun xs hxs => Json.wellFormed_arr hxs
    case h_6 members done hlayer =>
      refine (Except.Ensures.mapM (Q := fun e : String × Json => e.2.WellFormed) fun m _ => ?_).bind
        fun es hes => ?_
      · cases m with
        | entry key value before after => exact (ih value).map fun x hx => hx
        | fault e => intro _ h; cases h
      · intro _ h
        cases h
        exact Json.wellFormed_object hes
    all_goals intro _ h; cases h; try trivial

/-- All nodes of a YAML document are good. -/
theorem Yaml.sound_source (anchors : Yaml.Anchors) : (Yaml.source anchors).Sound fun _ => True where
  items := fun _ _ _ _ => trivial
  members := fun _ _ _ => trivial
  whole := fun {r} _ _ h => Yaml.wellFormed_whole anchors Yaml.depthLimit r _ h

/-- The entries of an order file are in key order. -/
theorem Order.wellFormed_ofFile {files : Files} {path : String} {order : List Json}
    (h : Order.ofFile files path = .ok order) : (Json.arr order).WellFormed := by
  simp only [ofFile, Except.mapError_ok_iff, Except.bind_ok_iff] at h
  obtain ⟨text, -, h⟩ := h
  simp only [parse, Except.bind_ok_iff, Except.mapError_ok_iff] at h
  obtain ⟨stream, -, h⟩ := h
  split at h
  · cases h
  · -- What is read of the first document is in key order, and so are its entries
    rename_i root rest hdocuments
    simp only [Except.bind_ok_iff, Except.mapError_ok_iff] at h
    obtain ⟨document, hdocument, h⟩ := h
    have hw : document.WellFormed := Schema.wellFormed_decode (Yaml.sound_source stream.anchors)
      (s := fileSchema) (by decide) trivial document hdocument
    -- The entries are a member of the document, or none at all.
    have hentries : (Json.arr (entries document)).WellFormed := by
      unfold entries
      split
      · rename_i entries horder
        exact hw.get? horder
      · trivial
    split at h
    · cases h
    · cases h
      exact hentries

end BuilderControl
