import BuilderControl.Proofs.Records

/-!
# Normal forms of documents

A record is read to an object that has under the key of each field what that field is read to, and
under no other key more than the record keeps.  So a record is described by its fields alone,
whichever of them stand in the object by way of another record.

## Key results

- `toOption_decode_buffered`: members that were set aside are read like any other
- `exists_decode_record`, `of_decode_record`: a record is read member by member
- `decode_record_insert`: setting a field before or after reading is the same
- `readField_required`, `readField_optional`, `readField_defaulted`: what fields are read to
- `of_decode_table`, `exists_decode_table`: a table is read member by member
-/

namespace BuilderControl

namespace Except

variable {ε ε' α β : Type}

/-- Two sequences of steps give the same, errors aside, if their steps do. -/
theorem toOption_bind_congr {x y : Except ε α} {f g : α → Except ε β}
    (h : x.toOption = y.toOption) (hf : ∀ a, (f a).toOption = (g a).toOption) :
    (x >>= f).toOption = (y >>= g).toOption := by
  cases x <;> cases y <;> cases h <;> first | rfl | exact hf _

/-- Two results that are the same, errors aside, are turned into the same. -/
theorem toOption_map_congr {x y : Except ε α} (f : α → β) (h : x.toOption = y.toOption) :
    (x.map f).toOption = (y.map f).toOption := by
  cases x <;> cases y <;> cases h <;> rfl

/-- Two lists of steps give the same, errors aside, if each of their steps does. -/
theorem toOption_mapM_congr {f g : α → Except ε β} (h : ∀ a, (f a).toOption = (g a).toOption)
    (l : List α) : (l.mapM f).toOption = (l.mapM g).toOption := by
  induction l with
  | nil => rfl
  | cons a l ih =>
    rw [List.mapM_cons, List.mapM_cons]
    exact toOption_bind_congr (h a) fun b => toOption_bind_congr ih fun bs => rfl

/-- Two folds give the same, errors aside, if each of their steps does. -/
theorem toOption_foldlM_congr {f g : β → α → Except ε β}
    (h : ∀ b a, (f b a).toOption = (g b a).toOption) (l : List α) (b : β) :
    (l.foldlM f b).toOption = (l.foldlM g b).toOption := by
  induction l generalizing b with
  | nil => rfl
  | cons a l ih =>
    rw [List.foldlM_cons, List.foldlM_cons]
    exact toOption_bind_congr (h b a) ih

end Except

namespace Schema

variable {ν : Type}

/-! ## Members that were set aside -/

/-- What is given to a field depends on how its value is read, errors aside. -/
theorem toOption_readGiven_congr (src : Source ν) (presence : Presence) (v : ν)
    {read read' : ν → Except DecodeError Json} (h : (read v).toOption = (read' v).toOption) :
    (readGiven src presence v read).toOption = (readGiven src presence v read').toOption := by
  cases presence with
  | fixed name => exact Except.toOption_bind_congr h fun _ => rfl
  | required | defaulted _ _ => exact Except.toOption_map_congr some h
  | _ =>
    simp only [readGiven]
    split
    · rfl
    · exact Except.toOption_map_congr some h

/-- Items of a list are read alike, however left over items are reported. -/
private theorem toOption_decodeItems_excess (src : Source ν) (excess : Nat → Nat → ν → DecodeError)
    (shape : RecordShape) (size : Nat) {fields : List (FieldInfo × Schema)}
    (ih : ∀ f ∈ fields, ∀ v, (decode { src with excess := excess } f.2 v).toOption =
      (decode src f.2 v).toOption) (taken : Nat) (items : List ν) (done : Option Spot) :
    (decodeItems { src with excess := excess } shape size taken fields items done).toOption =
      (decodeItems src shape size taken fields items done).toOption := by
  induction fields generalizing taken items with
  | nil => rfl
  | cons f fields ihf =>
    obtain ⟨info, schema⟩ := f
    have hrest := ihf (fun f hf => ih f (List.mem_cons_of_mem _ hf)) (taken + 1) items.tail
    -- What is settled and the rest do not depend on how the field's own item was read
    have hnext : ∀ {x y : Except DecodeError (Option Json)}
        {add : Option Json → List (String × Json) → List (String × Json)}, x.toOption = y.toOption →
        (x >>= fun given => do
          let written ← (settle info given).mapError (⟨·, done⟩)
          let rest ← decodeItems { src with excess := excess } shape size (taken + 1) fields
            items.tail done
          return add written rest : Except DecodeError (List (String × Json))).toOption =
        (y >>= fun given => do
          let written ← (settle info given).mapError (⟨·, done⟩)
          let rest ← decodeItems src shape size (taken + 1) fields items.tail done
          return add written rest : Except DecodeError (List (String × Json))).toOption :=
      fun hxy => Except.toOption_bind_congr hxy fun _ => Except.toOption_bind_congr rfl fun _ =>
        Except.toOption_bind_congr hrest fun _ => rfl
    simp only [decodeItems]
    cases items with
    | nil => cases info.presence <;> exact hnext rfl
    | cons v items =>
      exact hnext
        (toOption_readGiven_congr src info.presence v (ih (info, schema) List.mem_cons_self v))

/-- Members are gathered alike, however left over items are reported. -/
private theorem toOption_gatherMember_excess (src : Source ν) (excess : Nat → Nat → ν → DecodeError)
    {unique : Bool} {fields : List (FieldInfo × Schema)}
    {other : ν → Except DecodeError (Option Json)}
    (ih : ∀ f ∈ fields, ∀ v, (decode { src with excess := excess } f.2 v).toOption =
      (decode src f.2 v).toOption) (g : Gathered) (m : Member ν) :
    (gatherMember unique (decodeMember { src with excess := excess } fields) other g m).toOption =
      (gatherMember unique (decodeMember src fields) other g m).toOption := by
  cases m with
  | fault e => rfl
  | entry key value before after =>
    simp only [gatherMember, decodeMember_eq]
    cases hf : fields.find? (·.1.key = key) with
    | none => rfl
    | some f =>
      have hread : (readGiven { src with excess := excess } f.1.presence value
            (decode { src with excess := excess } f.2)).toOption =
          (readGiven src f.1.presence value (decode src f.2)).toOption :=
        toOption_readGiven_congr src f.1.presence value (ih f (List.mem_of_find?_eq_some hf) value)
      simp only [Option.map_some]
      -- From here on only success and the value of the two readings matter
      revert hread
      generalize readGiven { src with excess := excess } f.1.presence value
        (decode { src with excess := excess } f.2) = x
      generalize readGiven src f.1.presence value (decode src f.2) = y
      intro hread
      split
      · rfl
      · cases x <;> cases y <;> cases hread <;> rfl

/-- How left over items are reported has no influence on what is read. -/
theorem toOption_decode_excess (src : Source ν) (excess : Nat → Nat → ν → DecodeError)
    (s : Schema) (v : ν) :
    (decode { src with excess := excess } s v).toOption = (decode src s v).toOption := by
  -- By induction on the schema; only lists that are read as records can leave items over
  induction s using byFields generalizing v with
  | list item ih =>
    simp only [decode]
    cases src.layer v with
    | list items done => exact Except.toOption_map_congr _ (Except.toOption_mapM_congr ih items)
    | _ => rfl
  | table item ih =>
    simp only [decode]
    cases src.layer v with
    | map members done =>
      refine Except.toOption_bind_congr (Except.toOption_mapM_congr (fun m => ?_) members)
        fun _ => rfl
      cases m with
      | entry key value before after => exact Except.toOption_map_congr _ (ih value)
      | fault e => rfl
    | _ => rfl
  | record shape own inlined iho ihi =>
    simp only [decode]
    cases src.layer v with
    | map members done =>
      exact Except.toOption_bind_congr (Except.toOption_foldlM_congr
        (toOption_gatherMember_excess src excess iho) members _) fun _ => rfl
    | list items done =>
      cases shape.positional with
      | false => rfl
      | true =>
        refine Except.toOption_bind_congr
          (toOption_decodeItems_excess src excess shape own.length iho 0 items done) fun fs => ?_
        -- Left over items are a failure, however they are reported
        cases items.drop own.length <;> rfl
    | _ => rfl
  | _ => rfl

/-- In memory, a buffered source differs only in how it reports left over items. -/
private theorem memory_buffered :
    Source.memory.buffered = { Source.memory with excess := Source.memory.buffered.excess } := by
  -- Nothing is known of where a member stands, so nothing is forgotten
  have hlayer : (fun v => (Source.memory.layer v).bare) = Source.memory.layer := by
    funext v
    cases v with
    | obj ms => simp [Source.memory, Layer.bare, Member.bare, Function.comp_def]
    | _ => rfl
  have htext : (fun v => (Source.memory.textLayer v).bare) = Source.memory.textLayer := hlayer
  simp only [Source.buffered, hlayer, htext]
  rfl

/-- Members that were set aside are read like any other. -/
theorem toOption_decode_buffered (s : Schema) (v : Json) :
    (decode Source.memory.buffered s v).toOption = (decode .memory s v).toOption := by
  rw [memory_buffered]
  exact toOption_decode_excess _ _ s v

/-! ## Records, field by field -/

/-- What is written for a field, given the member under its key. -/
def readField (f : FieldInfo × Schema) (raw : Option Json) : Except DecodeError (Option Json) := do
  let given ← raw.elim (.ok none) fun v =>
    readGiven .memory f.1.presence v (decode .memory f.2)
  (settle f.1 given).mapError (⟨·, none⟩)

/-- What reading a field gives, if it is read. -/
theorem readField_ok_iff {f : FieldInfo × Schema} {raw w : Option Json} :
    readField f raw = .ok w ↔ ∃ given, (raw.elim (.ok none) fun v =>
      readGiven .memory f.1.presence v (decode .memory f.2)) = .ok given ∧
        settle f.1 given = .ok w := by
  simp only [readField, Except.bind_ok_iff, Except.mapError_ok_iff]

/-- The members that none of the fields reads. -/
def unlisted (fields : List (FieldInfo × Schema)) (ms : Entries String Json) :
    Entries String Json :=
  ms.filter fun e => fields.all (·.1.key ≠ e.1)

/-- A member is unlisted if no field has its key. -/
theorem get?_unlisted (fields : List (FieldInfo × Schema)) (ms : Entries String Json) (k : String) :
    Entries.get? (unlisted fields ms) k =
      if fields.all (·.1.key ≠ k) then Entries.get? ms k else none :=
  Entries.get?_filter (fun k => fields.all (·.1.key ≠ k)) ms k

/-- Unlisted members are in key order. -/
theorem sorted_unlisted (fields : List (FieldInfo × Schema)) {ms : Entries String Json}
    (hs : Entries.Sorted ms) : Entries.Sorted (unlisted fields ms) :=
  hs.sublist List.filter_sublist

/-- A source that reads what documents in memory hold. -/
private def ReadsAlike (src : Source Json) : Prop :=
  ∀ presence s v, (readGiven src presence v (decode src s)).toOption =
    (readGiven .memory presence v (decode .memory s)).toOption

/-- What was set aside is read like any other document in memory. -/
private theorem readsAlike_buffered : ReadsAlike Source.memory.buffered := by
  intro presence s v
  have habsent : isAbsent Source.memory.buffered = isAbsent .memory := by
    funext v
    cases v <;> rfl
  -- What counts as absent is the same, so only the reading itself could be different
  have hread : readGiven Source.memory.buffered presence v = readGiven .memory presence v := by
    funext read
    cases presence <;> simp only [readGiven, habsent]
  rw [hread]
  exact toOption_readGiven_congr .memory presence v (toOption_decode_buffered s v)

section Gather

variable {src : Source Json} (hsrc : ReadsAlike src) {unique keep : Bool}
  {fields : List (FieldInfo × Schema)} {ms : Entries String Json} (hs : Entries.Sorted ms)
  (hd : DistinctKeys fields)

/-- No field reads exactly the members that are unlisted. -/
private theorem unread_decodeMember :
    unread (decodeMember src fields) ms = unlisted fields ms := by
  refine List.filter_congr fun e _ => ?_
  rw [decodeMember_eq, Option.isNone_map]
  cases h : fields.find? (·.1.key = e.1) with
  | none => simpa using h
  | some f =>
    have hf := List.find?_some h
    simp only [decide_eq_true_eq] at hf
    have hmem := List.mem_of_find?_eq_some h
    simp only [Option.isNone_some, Bool.false_eq, List.all_eq_false]
    exact ⟨f, hmem, by simpa using hf⟩

include hsrc hs hd

/-- What is found for a field is what it is given by the member under its key. -/
private theorem get?_found {g : Gathered} {f : FieldInfo × Schema} (hf : f ∈ fields)
    (hg : gather unique (decodeMember src fields) (keptIf keep) (entriesOf ms) = .ok g) :
    Entries.get? g.found f.1.key = (Entries.get? ms f.1.key).bind fun v =>
      (readGiven .memory f.1.presence v (decode .memory f.2)).toOption := by
  obtain ⟨g', hg', hfound, -⟩ := gather_ok unique keep hs (of_gather_ok hg)
  cases hg.symm.trans hg'
  rw [hfound]
  refine congrArg _ (funext fun v => ?_)
  rw [decodeMember_eq, find?_of_mem hd hf]
  exact hsrc f.1.presence f.2 v

/-- A field is read as soon as the object is gathered and the field is settled. -/
private theorem readField_of_gather {g : Gathered} {f : FieldInfo × Schema} (hf : f ∈ fields)
    (hg : gather unique (decodeMember src fields) (keptIf keep) (entriesOf ms) = .ok g)
    {w : Option Json} (hw : settle f.1 (Entries.get? g.found f.1.key).join = .ok w) :
    readField f (Entries.get? ms f.1.key) = .ok w := by
  have hfound := get?_found hsrc hs hd hf hg
  cases hm : Entries.get? ms f.1.key with
  | none =>
    rw [hfound, hm] at hw
    exact readField_ok_iff.2 ⟨none, rfl, hw⟩
  | some v =>
    obtain ⟨j, hj⟩ := of_gather_ok hg _ (Entries.mem_of_get? hm)
      (readGiven src f.1.presence v (decode src f.2))
      (by rw [decodeMember_eq, find?_of_mem hd hf]; rfl)
    have hj' : (readGiven .memory f.1.presence v (decode .memory f.2)).toOption = some j := by
      rw [← hsrc, hj]
      rfl
    rw [hfound, hm, Option.bind_some, hj'] at hw
    exact readField_ok_iff.2 ⟨j, Except.toOption_eq_some.1 hj', hw⟩

variable (unique keep) in
/-- The object is gathered and its fields are settled as soon as all fields are read. -/
private theorem gather_of_readField {written : FieldInfo × Schema → Option Json}
    (h : ∀ f ∈ fields, readField f (Entries.get? ms f.1.key) = .ok (written f)) :
    ∃ g, gather unique (decodeMember src fields) (keptIf keep) (entriesOf ms) = .ok g ∧
      settleAll g.found fields =
        .ok (fields.filterMap fun f => (written f).map (f.1.key, ·)) ∧
      g.rest = if keep then unlisted fields ms else [] := by
  have hok : ∀ e ∈ ms, ∀ r, decodeMember src fields e.1 e.2 = some r → ∃ j, r = .ok j := by
    intro e he r hr
    rw [decodeMember_eq] at hr
    obtain ⟨f, hf, rfl⟩ := Option.map_eq_some_iff.1 hr
    have hkey : f.1.key = e.1 := by simpa using List.find?_some hf
    obtain ⟨given, hgiven, -⟩ := readField_ok_iff.1 (h f (List.mem_of_find?_eq_some hf))
    rw [hkey, hs.get?_of_mem (v := e.2) he] at hgiven
    refine ⟨given, Except.toOption_eq_some.1 ?_⟩
    rw [hsrc]
    exact Except.toOption_eq_some.2 hgiven
  -- Every member that a field reads is read, so the object is gathered
  obtain ⟨g, hg, -, hrest⟩ := gather_ok unique keep hs hok
  refine ⟨g, hg, settleAll_ok fun f hf => ?_, by rw [hrest, unread_decodeMember]⟩
  obtain ⟨given, hgiven, hsettle⟩ := readField_ok_iff.1 (h f hf)
  rw [get?_found hsrc hs hd hf hg]
  cases hm : Entries.get? ms f.1.key with
  | none =>
    rw [hm] at hgiven
    cases hgiven
    exact hsettle
  | some v =>
    rw [hm, Option.elim_some] at hgiven
    rw [Option.bind_some, Except.toOption_eq_some.2 hgiven]
    exact hsettle

end Gather

/-- No two fields of a record get in each other's way, and further fields are read from the object
only if nothing else is kept of it. -/
structure Separate (shape : RecordShape) (own inlined : List (FieldInfo × Schema)) : Prop where
  distinct : DistinctKeys (own ++ inlined)
  alone : inlined = [] ∨ (shape.identified = false ∧ shape.keepsRest = false)

/-- What an object is read to by a record, member by member. -/
structure ReadsTo (shape : RecordShape) (own inlined : List (FieldInfo × Schema))
    (ms xs : Entries String Json) : Prop where
  sorted : Entries.Sorted xs
  field : ∀ f ∈ own ++ inlined,
    readField f (Entries.get? ms f.1.key) = .ok (Entries.get? xs f.1.key)
  other : ∀ k, (∀ f ∈ own ++ inlined, f.1.key ≠ k) →
    Entries.get? xs k = (assemble shape (unlisted own ms) []).get? k

section Record

variable {shape : RecordShape} {own inlined : List (FieldInfo × Schema)} {ms : Entries String Json}

/-- Documents in memory are read as such. -/
private theorem readsAlike_memory : ReadsAlike .memory := fun _ _ _ => rfl

/-- How a record is read from an object in memory. -/
private theorem decode_record_eq (v : Json) (hv : v = .obj ms) :
    decode .memory (.record shape own inlined) v = (do
      let gathered ← gather shape.unique (decodeMember .memory own)
        (keptIf (shape.identified || shape.keepsRest || !inlined.isEmpty)) (entriesOf ms)
      let fields ← (settleAll gathered.found own).mapError (⟨·, none⟩)
      let further ← (gather shape.unique (decodeMember Source.memory.buffered inlined) (keptIf false)
        (entriesOf ms)).mapError (·.settle none)
      let more ← (settleAll further.found inlined).mapError (⟨·, none⟩)
      return assemble shape gathered.rest (more ++ fields)) := by
  subst hv
  have hother : (fun value : Json =>
      if shape.identified || shape.keepsRest || !inlined.isEmpty then
        (Source.memory.whole value).map some
      else (Source.memory.skip value).map fun _ => none) =
      keptIf (shape.identified || shape.keepsRest || !inlined.isEmpty) := by
    funext value
    cases shape.identified || shape.keepsRest || !inlined.isEmpty <;> rfl
  -- In memory nothing is said about where a member is, so nothing is taken away
  have hbare : (entriesOf ms).map Member.bare = entriesOf ms := by
    simp [entriesOf, Member.bare, Function.comp_def]
  have hlayer : Source.memory.layer (.obj ms) = .map (entriesOf ms) none := rfl
  simp only [decode, hlayer, hother, hbare]
  rfl

variable (hs : Entries.Sorted ms) (hd : Separate shape own inlined)
include hs hd

/-- All fields of a record are read if it is. -/
private theorem exists_readField {x : Json}
    (h : decode .memory (.record shape own inlined) (.obj ms) = .ok x) :
    ∀ f ∈ own ++ inlined, ∃ w, readField f (Entries.get? ms f.1.key) = .ok w := by
  obtain ⟨hdo, hdi, -⟩ := hd.distinct.append
  simp only [decode_record_eq _ rfl, Except.bind_ok_iff, Except.mapError_ok_iff] at h
  obtain ⟨g, hg, fields, hfields, g', hg', more, hmore, -⟩ := h
  intro f hf
  -- Own fields are read from the object, further ones from what was set aside of it
  rcases List.mem_append.1 hf with hf | hf
  · obtain ⟨w, hw⟩ := of_settleAll_ok hfields f hf
    exact ⟨w, readField_of_gather readsAlike_memory hs hdo hf hg hw⟩
  · obtain ⟨w, hw⟩ := of_settleAll_ok hmore f hf
    exact ⟨w, readField_of_gather readsAlike_buffered hs hdi hf hg' hw⟩

/-- The members that an object keeps besides those of its fields have no key of a field. -/
private theorem get?_kept_eq_none {f : FieldInfo × Schema} (hf : f ∈ own ++ inlined)
    (keep : Bool) :
    (assemble shape (if keep then unlisted own ms else []) []).get? f.1.key = none := by
  rcases List.mem_append.1 hf with hf | hf
  · split
    · -- The key of an own field is not unlisted
      refine get?_assemble_eq_none shape (sorted_unlisted own hs) ?_
      rw [get?_unlisted, if_neg fun hall => ?_]
      simpa using List.all_eq_true.1 hall f hf
    · exact get?_assemble_eq_none shape Entries.sorted_nil rfl
  · -- With further fields, nothing else is kept
    rcases hd.alone with rfl | ⟨hi, hk⟩
    · cases hf
    · exact get?_assemble_of_drops hi hk _ _

/-- Each field of a record stands in what is assembled of its fields as it was written. -/
private theorem get?_assemble_written (keep : Bool)
    (written : FieldInfo × Schema → Option Json) {f : FieldInfo × Schema}
    (hf : f ∈ own ++ inlined) :
    (assemble shape (if keep then unlisted own ms else [])
      ((inlined.filterMap fun f => (written f).map (f.1.key, ·)) ++
        own.filterMap fun f => (written f).map (f.1.key, ·))).get? f.1.key = written f := by
  obtain ⟨hdo, hdi, hne⟩ := hd.distinct.append
  rw [get?_assemble_append, get?_kept_eq_none hs hd hf]
  rcases List.mem_append.1 hf with hf | hf
  · rw [get?_written hdo hf, get?_written_eq_none fun g hg => (hne f hf g hg).symm]
    simp
  · rw [get?_written_eq_none fun g hg => hne g hg f hf, get?_written hdi hf]
    simp

/-- A record is assembled of what its fields are read to. -/
private theorem decode_record_of_readField (written : FieldInfo × Schema → Option Json)
    (h : ∀ f ∈ own ++ inlined, readField f (Entries.get? ms f.1.key) = .ok (written f)) :
    ∃ xs, decode .memory (.record shape own inlined) (.obj ms) = .ok (.obj xs) ∧
      ReadsTo shape own inlined ms xs := by
  -- The fields of the record are gathered first, and then the inlined ones from what is left over.
  obtain ⟨hdo, hdi, -⟩ := hd.distinct.append
  obtain ⟨g, hg, hfields, hrest⟩ := gather_of_readField readsAlike_memory shape.unique
    (shape.identified || shape.keepsRest || !inlined.isEmpty) hs hdo
    fun f hf => h f (List.mem_append_left _ hf)
  obtain ⟨g', hg', hmore, -⟩ := gather_of_readField readsAlike_buffered shape.unique false hs hdi
    fun f hf => h f (List.mem_append_right _ hf)
  obtain ⟨xs, hx⟩ : ∃ xs, .obj xs = assemble shape g.rest
      ((inlined.filterMap fun f => (written f).map (f.1.key, ·)) ++
        own.filterMap fun f => (written f).map (f.1.key, ·)) := ⟨_, rfl⟩
  have hdecode : decode .memory (.record shape own inlined) (.obj ms) = .ok (.obj xs) := by
    simp only [decode_record_eq _ rfl, Except.bind_ok_iff, Except.mapError_ok_iff]
    exact ⟨g, hg, _, hfields, g', hg', _, hmore, hx ▸ rfl⟩
  rw [hrest] at hx
  have hfield : ∀ f ∈ own ++ inlined, Entries.get? xs f.1.key = written f := by
    intro f hf
    rw [← Json.get?_obj, hx]
    exact get?_assemble_written hs hd _ written hf
  refine ⟨xs, hdecode, ⟨?_, fun f hf => hfield f hf ▸ h f hf, fun k hk => ?_⟩⟩
  · rw [← Json.members_obj xs, hx]
    exact Entries.sorted_ofList _
  · -- Under the key of no field there is only what is left over
    rw [← Json.get?_obj, hx, get?_assemble_append,
      get?_written_eq_none fun f hf => hk f (List.mem_append_left _ hf),
      get?_written_eq_none fun f hf => hk f (List.mem_append_right _ hf)]
    simp only [Option.none_or]
    split
    · rfl
    · -- Where members are not set aside, none are kept
      rename_i hkeep
      simp only [Bool.or_eq_true, not_or, Bool.not_eq_true] at hkeep
      rw [get?_assemble_of_drops hkeep.1.1 hkeep.1.2, get?_assemble_of_drops hkeep.1.1 hkeep.1.2]

/-- A record is read if all its fields are. -/
theorem exists_decode_record
    (h : ∀ f ∈ own ++ inlined, ∃ w, readField f (Entries.get? ms f.1.key) = .ok w) :
    ∃ xs, decode .memory (.record shape own inlined) (.obj ms) = .ok (.obj xs) ∧
      ReadsTo shape own inlined ms xs := by
  refine decode_record_of_readField hs hd
    (fun f => (readField f (Entries.get? ms f.1.key)).toOption.join) fun f hf => ?_
  obtain ⟨w, hw⟩ := h f hf
  rw [hw]
  rfl

/-- What is read as a record is read member by member. -/
theorem of_decode_record {x : Json}
    (h : decode .memory (.record shape own inlined) (.obj ms) = .ok x) :
    ∃ xs, x = .obj xs ∧ ReadsTo shape own inlined ms xs := by
  obtain ⟨xs, hxs, hreads⟩ := exists_decode_record hs hd (exists_readField hs hd h)
  cases h.symm.trans hxs
  exact ⟨xs, rfl, hreads⟩

/-- Setting a field leaves alone what is kept besides the fields. -/
private theorem get?_assemble_unlisted_insert {f : FieldInfo × Schema}
    (hf : f ∈ own ++ inlined) (v : Json) (k : String) :
    (assemble shape (unlisted own (Entries.insert ms f.1.key v)) []).get? k =
      (assemble shape (unlisted own ms) []).get? k := by
  rcases List.mem_append.1 hf with hf | hf
  · -- An own field is not among the members that are left over
    have hleft : unlisted own (Entries.insert ms f.1.key v) = unlisted own ms := by
      refine (sorted_unlisted own (hs.insert f.1.key v)).ext (sorted_unlisted own hs) fun l => ?_
      rw [get?_unlisted, get?_unlisted]
      split
      · rename_i hall
        have hne : f.1.key ≠ l := by simpa using List.all_eq_true.1 hall f hf
        rw [Entries.get?_insert, if_neg hne.symm]
      · rfl
    rw [hleft]
  · rcases hd.alone with rfl | ⟨hi, hk⟩
    · cases hf
    · rw [get?_assemble_of_drops hi hk, get?_assemble_of_drops hi hk]

/-- Setting a field before or after reading is the same. -/
theorem decode_record_insert {xs : Entries String Json}
    (h : decode .memory (.record shape own inlined) (.obj ms) = .ok (.obj xs))
    {f : FieldInfo × Schema} (hf : f ∈ own ++ inlined) {v w : Json}
    (hread : readField f (some v) = .ok (some w)) :
    decode .memory (.record shape own inlined) (.obj (Entries.insert ms f.1.key v)) =
      .ok (.obj (Entries.insert xs f.1.key w)) := by
  obtain ⟨_, heq, hxs⟩ := of_decode_record hs hd h
  cases heq
  have hfield : ∀ g ∈ own ++ inlined,
      readField g (Entries.get? (Entries.insert ms f.1.key v) g.1.key) =
        .ok (Entries.get? (Entries.insert xs f.1.key w) g.1.key) := by
    intro g hg
    rw [Entries.get?_insert, Entries.get?_insert]
    split
    · rename_i hkey
      rw [hd.distinct.eq hg hf hkey]
      exact hread
    · exact hxs.field g hg
  -- Apart from the one that is set, all fields are read as before
  obtain ⟨ys, hys, hreads⟩ := exists_decode_record (hs.insert f.1.key v) hd
    fun g hg => ⟨_, hfield g hg⟩
  rw [hys]
  refine congrArg (Except.ok ∘ Json.obj)
    (hreads.sorted.ext (hxs.sorted.insert f.1.key w) fun k => ?_)
  -- Both results have the same under the keys of fields, and the same under all others
  by_cases hlisted : ∃ g ∈ own ++ inlined, g.1.key = k
  · obtain ⟨g, hg, rfl⟩ := hlisted
    exact Except.ok.inj ((hreads.field g hg).symm.trans (hfield g hg))
  · have hk : ∀ g ∈ own ++ inlined, g.1.key ≠ k := fun g hg heq => hlisted ⟨g, hg, heq⟩
    rw [hreads.other k hk, Entries.get?_insert, if_neg (hk f hf).symm, hxs.other k hk]
    exact get?_assemble_unlisted_insert hs hd hf v k

end Record

/-- A record that takes no lists is read from an object. -/
theorem isObject_of_decode_record {shape : RecordShape} {own inlined : List (FieldInfo × Schema)}
    (hp : shape.positional = false) {v x : Json}
    (h : decode .memory (.record shape own inlined) v = .ok x) : v.isObject = true := by
  cases v with
  | obj ms => rfl
  | arr items =>
    have hlayer : Source.memory.layer (.arr items) = .list items none := rfl
    simp [decode, hlayer, hp] at h
  | _ => cases h

/-! ## Fields by presence -/

section Presence

variable {key : String} {s : Schema} {value : Json} {raw w : Option Json}

/-- A required field has to be there, and is read. -/
theorem readField_required :
    readField (⟨key, .required⟩, s) raw = .ok w ↔
      ∃ v x, raw = some v ∧ decode .memory s v = .ok x ∧ w = some x := by
  rw [readField_ok_iff]
  cases raw with
  | none => simp [settle]
  | some v =>
    simp only [Option.elim_some, readGiven, Except.map_ok_iff, settle]
    constructor
    · rintro ⟨given, ⟨x, hx, rfl⟩, hw⟩
      cases hw
      exact ⟨v, x, rfl, hx, rfl⟩
    · rintro ⟨_, x, hv, hx, rfl⟩
      cases hv
      exact ⟨some x, ⟨x, hx, rfl⟩, rfl⟩

/-- An optional field that is not there or `null` is not written. -/
theorem readField_optional :
    readField (⟨key, .optional⟩, s) raw = .ok w ↔
      (raw.getD .null = .null ∧ w = none) ∨
        ∃ v x, raw = some v ∧ v ≠ .null ∧ decode .memory s v = .ok x ∧ w = some x := by
  rw [readField_ok_iff]
  cases raw with
  | none => simp [settle, eq_comm]
  | some v =>
    have habsent : isAbsent .memory v = v.isNull := by cases v <;> rfl
    simp only [Option.elim_some, readGiven, settle, habsent, Option.getD_some]
    -- `null` counts as absent
    by_cases hv : v = .null
    · subst hv
      constructor
      · rintro ⟨given, hgiven, hw⟩
        cases hgiven
        cases hw
        exact Or.inl ⟨rfl, rfl⟩
      · rintro (⟨-, rfl⟩ | ⟨v, x, hv, hne, -⟩)
        · exact ⟨none, rfl, rfl⟩
        · cases hv
          exact absurd rfl hne
    · have hnull : v.isNull = false := by cases v <;> first | rfl | exact absurd rfl hv
      simp only [hnull, Bool.false_eq_true, if_false, Except.map_ok_iff]
      constructor
      · rintro ⟨given, ⟨x, hx, rfl⟩, hw⟩
        cases hw
        exact Or.inr ⟨v, x, rfl, hv, hx, rfl⟩
      · rintro (⟨hnull, -⟩ | ⟨_, x, hv', -, hx, rfl⟩)
        · exact absurd hnull hv
        · cases hv'
          exact ⟨some x, ⟨x, hx, rfl⟩, rfl⟩

/-- What is given for a lenient field is read, unless it is `null`. -/
theorem readField_lenient_some {v : Json} (hv : v ≠ .null) :
    readField (⟨key, .lenient value⟩, s) (some v) = .ok w ↔
      ∃ x, decode .memory s v = .ok x ∧ w = some x := by
  have habsent : isAbsent .memory v = false := by
    cases v <;> first | rfl | exact absurd rfl hv
  rw [readField_ok_iff]
  simp only [Option.elim_some, readGiven, habsent, Bool.false_eq_true, if_false,
    Except.map_ok_iff, settle]
  constructor
  · rintro ⟨given, ⟨x, hx, rfl⟩, hw⟩
    cases hw
    exact ⟨x, hx, rfl⟩
  · rintro ⟨x, hx, rfl⟩
    exact ⟨some x, ⟨x, hx, rfl⟩, rfl⟩

/-- A field with a default is written with it if it is not there, or not at all; and it is written
otherwise unless it is left out for being the default. -/
theorem readField_defaulted {always : Bool} :
    readField (⟨key, .defaulted value always⟩, s) raw = .ok w ↔
      (raw = none ∧ w = if always then some value else none) ∨
        ∃ v x, raw = some v ∧ decode .memory s v = .ok x ∧
          w = if x = value ∧ !always then none else some x := by
  rw [readField_ok_iff]
  cases raw with
  | none => cases always <;> simp [settle, eq_comm]
  | some v =>
    simp only [Option.elim_some, readGiven, Except.map_ok_iff, settle]
    constructor
    · rintro ⟨given, ⟨x, hx, rfl⟩, hw⟩
      cases hw
      exact Or.inr ⟨v, x, rfl, hx, rfl⟩
    · rintro (⟨hv, -⟩ | ⟨_, x, hv, hx, rfl⟩)
      · cases hv
      · cases hv
        exact ⟨some x, ⟨x, hx, rfl⟩, rfl⟩

end Presence

/-! ## Tables -/

section Table

variable {item : Schema} {ms es : Entries String Json}

/-- What is read of a member of a table, if it is there. -/
def readMember (item : Schema) (raw : Option Json) : Except DecodeError (Option Json) :=
  raw.elim (.ok none) fun v => (decode .memory item v).map some

/-- A member that is there is read. -/
theorem readMember_some {v : Json} {w : Option Json} :
    readMember item (some v) = .ok w ↔ ∃ x, decode .memory item v = .ok x ∧ w = some x := by
  rw [readMember, Option.elim_some, Except.map_ok_iff]
  exact exists_congr fun x => and_congr_right fun _ => eq_comm

/-- What is read of the members of a table. -/
private def readMembers (item : Schema) (ms : Entries String Json) :
    Except DecodeError (Entries String Json) :=
  ms.mapM fun (k, v) => (decode .memory item v).map (k, ·)

/-- A table is made of what its members are read to. -/
private theorem decode_table_eq :
    decode .memory (.table item) (.obj ms) = (readMembers item ms).map Json.object := by
  have hlayer : Source.memory.layer (.obj ms) = .map (entriesOf ms) none := rfl
  simp only [decode, hlayer, entriesOf, List.mapM_map]
  cases h : readMembers item ms <;> simp_all [readMembers, Function.comp_def] <;> rfl

/-- The members of a table are read one by one, under the same keys. -/
private theorem of_readMembers_ok (h : readMembers item ms = .ok es) :
    es.map Prod.fst = ms.map Prod.fst ∧
      ∀ k, readMember item (Entries.get? ms k) = .ok (Entries.get? es k) := by
  induction ms generalizing es with
  | nil =>
    cases h
    exact ⟨rfl, fun _ => rfl⟩
  | cons m ms ih =>
    obtain ⟨k, v⟩ := m
    simp only [readMembers, List.mapM_cons, Except.bind_ok_iff, Except.map_ok_iff] at h
    obtain ⟨_, ⟨w, hw, rfl⟩, rest, hrest, h⟩ := h
    cases h
    obtain ⟨hkeys, hget⟩ := ih hrest
    refine ⟨by rw [List.map_cons, List.map_cons, hkeys], fun k' => ?_⟩
    rw [Entries.get?_cons, Entries.get?_cons]
    split
    · simp [readMember, hw, Except.map]
    · exact hget k'

/-- If each member of a table is read, all of them are. -/
private theorem exists_readMembers (h : ∀ e ∈ ms, ∃ w, decode .memory item e.2 = .ok w) :
    ∃ es, readMembers item ms = .ok es := by
  induction ms with
  | nil => exact ⟨[], rfl⟩
  | cons m ms ih =>
    obtain ⟨w, hw⟩ := h m List.mem_cons_self
    obtain ⟨es, hes⟩ := ih fun e he => h e (List.mem_cons_of_mem _ he)
    refine ⟨(m.1, w) :: es, ?_⟩
    simp only [readMembers, List.mapM_cons, Except.bind_ok_iff, Except.map_ok_iff]
    exact ⟨_, ⟨w, hw, rfl⟩, es, hes, rfl⟩

/-- Members under the same keys are in key order if the others are. -/
private theorem sorted_of_keys_eq (hs : Entries.Sorted ms)
    (h : es.map Prod.fst = ms.map Prod.fst) : Entries.Sorted es := by
  have hkeys : (ms.map Prod.fst).Pairwise (· < ·) := List.pairwise_map.2 hs
  rw [← h] at hkeys
  exact List.pairwise_map.1 hkeys

/-- What is read as a table is read member by member. -/
theorem of_decode_table (hs : Entries.Sorted ms) {x : Json}
    (h : decode .memory (.table item) (.obj ms) = .ok x) :
    ∃ xs, x = .obj xs ∧ Entries.Sorted xs ∧
      ∀ k, readMember item (Entries.get? ms k) = .ok (Entries.get? xs k) := by
  rw [decode_table_eq] at h
  obtain ⟨es, hes, rfl⟩ := Except.map_ok_iff.1 h
  obtain ⟨hkeys, hget⟩ := of_readMembers_ok hes
  have hsorted := sorted_of_keys_eq hs hkeys
  exact ⟨es, by rw [Json.object, hsorted.ofList_eq], hsorted, hget⟩

/-- A table is read if all its members are. -/
theorem exists_decode_table
    (h : ∀ k v, Entries.get? ms k = some v → ∃ w, decode .memory item v = .ok w)
    (hs : Entries.Sorted ms) : ∃ x, decode .memory (.table item) (.obj ms) = .ok x := by
  obtain ⟨es, hes⟩ := exists_readMembers fun e he => h e.1 e.2 (hs.get?_of_mem he)
  rw [decode_table_eq, hes]
  exact ⟨_, rfl⟩

/-- A table is read from an object. -/
theorem isObject_of_decode_table {v x : Json} (h : decode .memory (.table item) v = .ok x) :
    v.isObject = true := by
  cases v <;> first | rfl | cases h

end Table

end Schema

end BuilderControl
