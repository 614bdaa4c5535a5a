import BuilderControl.Proofs.Records

/-!
# What readings ensure

A property of what is read is shown where it is read: for a value that is given to a field, for what
is written when the field is settled, and from these for the object that is assembled of them.  It
makes no difference which source is read, or whether reading succeeds.

## Key results

- `Except.Ensures`: whatever is given, if anything is, has a property
- `eq_of_readGiven_ok`, `eq_of_settle_ok`: where a value of a field comes from
- `FieldsEnsure.decode_record`: a record is assembled of what its fields ensure
- `Written.get?_reverse`: what stands under the key of a field among the members that are written
-/

namespace BuilderControl

namespace Except

variable {ε ε' α β : Type} {x : Except ε α} {P : α → Prop} {Q : β → Prop}

/-- Whatever is given, if anything is, has a property. -/
def Ensures (x : Except ε α) (P : α → Prop) : Prop := ∀ a, x = .ok a → P a

/-- What follows on a result may rely on what is ensured of it. -/
theorem Ensures.bind {f : α → Except ε β} (hx : Ensures x P) (hf : ∀ a, P a → Ensures (f a) Q) :
    Ensures (x >>= f) Q := by
  intro b h
  obtain ⟨a, ha, hb⟩ := bind_ok_iff.1 h
  exact hf a (hx a ha) b hb

/-- What is ensured of a result carries over to what it is turned into. -/
theorem Ensures.map {f : α → β} (hx : Ensures x P) (hf : ∀ a, P a → Q (f a)) :
    Ensures (x.map f) Q := by
  intro b h
  obtain ⟨a, ha, rfl⟩ := map_ok_iff.1 h
  exact hf a (hx a ha)

/-- Changing the error leaves what is ensured of results. -/
theorem Ensures.mapError (hx : Ensures x P) (f : ε → ε') : Ensures (x.mapError f) P :=
  fun a h => hx a (mapError_ok_iff.1 h)

/-- What is ensured of each step holds of all results. -/
theorem Ensures.mapM {f : α → Except ε β} {l : List α} (hf : ∀ a ∈ l, Ensures (f a) Q) :
    Ensures (l.mapM f) fun bs => ∀ b ∈ bs, Q b := by
  induction l with
  | nil => intro bs h; cases h; simp
  | cons a l ih =>
    rw [List.mapM_cons]
    refine (hf a List.mem_cons_self).bind fun b hb =>
      (ih fun c hc => hf c (List.mem_cons_of_mem _ hc)).bind fun bs hbs => ?_
    intro _ h
    cases h
    exact List.forall_mem_cons.2 ⟨hb, hbs⟩

/-- An invariant that is ensured by each step is ensured by all of them. -/
theorem Ensures.foldlM {f : β → α → Except ε β} {l : List α} {b : β} (hb : Q b)
    (hf : ∀ b, Q b → ∀ a ∈ l, Ensures (f b a) Q) : Ensures (l.foldlM f b) Q := by
  induction l generalizing b with
  | nil => intro _ h; cases h; exact hb
  | cons a l ih =>
    rw [List.foldlM_cons]
    exact (hf b hb a List.mem_cons_self).bind fun b' hb' =>
      ih hb' fun c hc d hd => hf c hc d (List.mem_cons_of_mem _ hd)

end Except

/-- The value that stands for a field that is not given. -/
def Presence.value? : Presence → Option Json
  | .defaulted value _ | .lenient value | .nullable value => some value
  | .fixed text => some (.str text)
  | .required | .optional => none

namespace Schema

/-! ## Values of fields -/

/-- A value that is written for a field was given, or stands for the field. -/
theorem eq_of_settle_ok {info : FieldInfo} {given : Option Json} {w : Json}
    (h : settle info given = .ok (some w)) : given = some w ∨ info.presence.value? = some w := by
  obtain ⟨key, presence⟩ := info
  cases presence with
  | required | nullable _ => cases given <;> cases h; exact Or.inl rfl
  | optional => cases h; exact Or.inl rfl
  | defaulted value always =>
    simp only [settle, Except.ok.injEq] at h
    split at h
    · cases h
    · cases given <;> cases h
      · exact Or.inr rfl
      · exact Or.inl rfl
  | lenient value =>
    cases given <;> cases h
    · exact Or.inr rfl
    · exact Or.inl rfl
  | fixed name => cases h; exact Or.inr rfl

/-- A value that is given to a field was read, or stands for it. -/
theorem eq_of_readGiven_ok {ν : Type} {src : Source ν} {presence : Presence} {v : ν}
    {read : ν → Except DecodeError Json} {w : Json}
    (h : readGiven src presence v read = .ok (some w)) :
    read v = .ok w ∨ presence.value? = some w := by
  have hmap : (read v).map some = .ok (some w) → read v = .ok w := by
    intro hm
    obtain ⟨x, hx, heq⟩ := Except.map_ok_iff.1 hm
    cases heq
    exact hx
  -- Each presence has its own way of reading what is given
  cases presence with
  | required | defaulted _ _ => exact Or.inl (hmap h)
  | optional =>
    simp only [readGiven] at h
    split at h
    · cases h
    · exact Or.inl (hmap h)
  | lenient value | nullable value =>
    simp only [readGiven] at h
    split at h
    · cases h; exact Or.inr rfl
    · exact Or.inl (hmap h)
  | fixed name =>
    simp only [readGiven, Except.bind_ok_iff] at h
    obtain ⟨j, hj, h⟩ := h
    split at h
    · cases h; exact Or.inl hj
    · cases h

/-! ## Parts of records -/

section Parts

variable {ν : Type} {src : Source ν} {fields : List (FieldInfo × Schema)}
  {G W : FieldInfo × Schema → Option Json → Prop}

/-- Members that are written for some fields, one after the other: for each field what is said of
it. -/
inductive Written (W : FieldInfo × Schema → Option Json → Prop) :
    List (FieldInfo × Schema) → List (String × Json) → Prop
  | nil : Written W [] []
  | absent {f : FieldInfo × Schema} {fields : List (FieldInfo × Schema)}
      {rest : List (String × Json)} (hf : W f none) (hrest : Written W fields rest) :
      Written W (f :: fields) rest
  | present {f : FieldInfo × Schema} {fields : List (FieldInfo × Schema)}
      {rest : List (String × Json)} {v : Json} (hf : W f (some v))
      (hrest : Written W fields rest) : Written W (f :: fields) ((f.1.key, v) :: rest)

/-- One more field is written, or left out. -/
private theorem Written.cons {f : FieldInfo × Schema} {written : Option Json}
    {rest : List (String × Json)} :
    W f written → Written W fields rest → Written W (f :: fields) (match written with
      | some v => (f.1.key, v) :: rest
      | none => rest) := by
  intro hf hrest
  cases written with
  | none => exact .absent hf hrest
  | some v => exact .present hf hrest

/-- What is gathered comes from fields; anything else is kept as a whole, under a key of no field,
or not at all. -/
theorem gather_ensures {unique : Bool} {other : ν → Except DecodeError (Option Json)}
    {Q : Json → Prop} {members : List (Member ν)}
    (hread : ∀ key v before after, .entry key v before after ∈ members → ∀ f ∈ fields,
      Except.Ensures (readGiven src f.1.presence v (decode src f.2)) (G f))
    (ho : ∀ key v before after, .entry key v before after ∈ members →
      Except.Ensures (other v) fun kept => ∀ w, kept = some w → Q w) :
    Except.Ensures (gather unique (decodeMember src fields) other members) fun g =>
      (∀ k given, Entries.get? g.found k = some given → ∃ f ∈ fields, f.1.key = k ∧ G f given) ∧
        ∀ e ∈ g.rest, Q e.2 ∧ ∀ f ∈ fields, f.1.key ≠ e.1 := by
  -- The invariant of the fold is what is said of the gathered members, in the end as at every step
  refine Except.Ensures.foldlM ⟨by simp, by simp⟩ fun g hg m hmem => ?_
  cases m with
  | fault e => intro _ h; cases h
  | entry key v before after =>
    simp only [gatherMember, decodeMember_eq]
    cases hfind : fields.find? (·.1.key = key) with
    | none =>
      -- No field reads the member: it is kept as a whole, if at all
      refine (ho key v before after hmem).map fun kept hkept => ?_
      cases kept with
      | none => exact hg
      | some w =>
        refine ⟨hg.1, fun e he => ?_⟩
        rcases List.mem_append.1 he with he | he
        · exact hg.2 e he
        · cases List.mem_singleton.1 he
          exact ⟨hkept w rfl, by simpa using hfind⟩
    | some f =>
      -- The field reads the member, unless that came before
      have hf := List.mem_of_find?_eq_some hfind
      have hkey : f.1.key = key := by simpa using List.find?_some hfind
      simp only [Option.map_some]
      split
      · intro _ h; cases h
      · split
        · rename_i given hgiven
          intro _ h
          cases h
          -- The new member is what was just read, and the others are as before
          refine ⟨fun k w hw => ?_, hg.2⟩
          rw [Entries.get?_insert] at hw
          split at hw
          · rename_i hk
            cases hw
            exact ⟨f, hf, hkey.trans hk.symm, hread key v before after hmem f hf given hgiven⟩
          · exact hg.1 k w hw
        · intro _ h; cases h

/-- If each field is settled as is said of it, the record is written as is said of its fields. -/
theorem settleAll_ensures {found : Entries String (Option Json)}
    (h : ∀ f ∈ fields, Except.Ensures (settle f.1 (Entries.get? found f.1.key).join) (W f)) :
    Except.Ensures (settleAll found fields) (Written W fields) := by
  induction fields with
  | nil => intro _ h; cases h; exact .nil
  | cons f fields ih =>
    simp only [settleAll]
    refine (h f List.mem_cons_self).bind fun written hwritten =>
      (ih fun g hg => h g (List.mem_cons_of_mem _ hg)).bind fun rest hrest => ?_
    intro _ h
    cases h
    exact Written.cons hwritten hrest

/-- The items of a list are given to the fields one after the other, and fields that are left over
get nothing. -/
theorem decodeItems_ensures {shape : RecordShape} {size taken : Nat} {items : List ν}
    (hread : ∀ v ∈ items, ∀ f ∈ fields,
      Except.Ensures (readGiven src f.1.presence v (decode src f.2)) (G f))
    (hnone : ∀ f ∈ fields, G f none)
    (hsettle : ∀ f ∈ fields, ∀ given, G f given → Except.Ensures (settle f.1 given) (W f))
    {done : Option Spot} :
    Except.Ensures (decodeItems src shape size taken fields items done) (Written W fields) := by
  induction fields generalizing taken items with
  | nil => intro _ h; cases h; exact .nil
  | cons f fields ih =>
    -- Whatever the first field is given, the others go on with what is left
    have hnext : ∀ given : Option Json, G f given →
        Except.Ensures (do
          let written ← (settle f.1 given).mapError (⟨·, done⟩)
          let rest ← decodeItems src shape size (taken + 1) fields items.tail done
          return match written with
            | some v => (f.1.key, v) :: rest
            | none => rest : Except DecodeError (List (String × Json))) (Written W (f :: fields)) := by
      intro given hgiven
      refine ((hsettle f List.mem_cons_self given hgiven).mapError _).bind fun written hwritten =>
        (ih (fun v hv g hg => hread v (List.mem_of_mem_tail hv) g (List.mem_cons_of_mem _ hg))
          (fun g hg => hnone g (List.mem_cons_of_mem _ hg))
          fun g hg => hsettle g (List.mem_cons_of_mem _ hg)).bind fun rest hrest => ?_
      intro _ h
      cases h
      exact Written.cons hwritten hrest
    have habsent := hnext none (hnone f List.mem_cons_self)
    have hf := fun v hv => hread v hv f List.mem_cons_self
    obtain ⟨⟨key, presence⟩, s⟩ := f
    simp only [decodeItems]
    cases items with
    -- Without an item the field is absent, which is a failure if it has to be there
    | nil => cases presence <;> first | exact habsent | (intro _ h; cases h)
    | cons v items => exact (hf v List.mem_cons_self).bind hnext

/-- What is said of what is given to some fields, and of what is written for them. -/
structure FieldsEnsure (src : Source ν) (good : ν → Prop)
    (G W : FieldInfo × Schema → Option Json → Prop) (fields : List (FieldInfo × Schema)) :
    Prop where
  read : ∀ f ∈ fields, ∀ v, good v →
    Except.Ensures (readGiven src f.1.presence v (decode src f.2)) (G f)
  absent : ∀ f ∈ fields, G f none
  sameKey : ∀ f ∈ fields, ∀ g ∈ fields, f.1.key = g.1.key → ∀ given, G f given → G g given
  settle : ∀ f ∈ fields, ∀ given, G f given → Except.Ensures (settle f.1 given) (W f)

variable {good : ν → Prop}

/-- Fields are settled after all members were gathered. -/
theorem FieldsEnsure.gather (h : FieldsEnsure src good G W fields) {unique : Bool}
    {other : ν → Except DecodeError (Option Json)} {Q : Json → Prop} {members : List (Member ν)}
    (hm : ∀ key v before after, .entry key v before after ∈ members → good v)
    (ho : ∀ v, good v → Except.Ensures (other v) fun kept => ∀ w, kept = some w → Q w) :
    Except.Ensures (gather unique (decodeMember src fields) other members) fun g =>
      Except.Ensures (settleAll g.found fields) (Written W fields) ∧
        ∀ e ∈ g.rest, Q e.2 ∧ ∀ f ∈ fields, f.1.key ≠ e.1 := by
  intro g hg
  obtain ⟨hfound, hrest⟩ := gather_ensures
    (fun key v before after hmem f hf => h.read f hf v (hm key v before after hmem))
    (fun key v before after hmem => ho v (hm key v before after hmem)) g hg
  refine ⟨settleAll_ensures fun f hf => h.settle f hf _ ?_, hrest⟩
  cases hget : Entries.get? g.found f.1.key with
  | none => exact h.absent f hf
  | some given =>
    -- What was found under the key was given to a field of that key
    obtain ⟨f', hf', hkey, hgiven⟩ := hfound _ _ hget
    exact h.sameKey f' hf' f hf hkey given hgiven

/-- An object as it is assembled from what is written for the fields of a record. -/
inductive Assembled (shape : RecordShape) (W : FieldInfo × Schema → Option Json → Prop)
    (Q : Json → Prop) (own inlined : List (FieldInfo × Schema)) : Json → Prop
  | ofMembers {rest more members : List (String × Json)}
      (hrest : ∀ e ∈ rest, Q e.2 ∧ ∀ f ∈ own, f.1.key ≠ e.1) (hmore : Written W inlined more)
      (hmembers : Written W own members) :
      Assembled shape W Q own inlined (assemble shape rest (more ++ members))
  | ofItems {members : List (String × Json)} (hpositional : shape.positional = true)
      (hmembers : Written W own members) : Assembled shape W Q own inlined (.object members)

/-- Own fields are read from the source, further ones from what was buffered of it. -/
theorem FieldsEnsure.decode_record {shape : RecordShape} {own inlined : List (FieldInfo × Schema)}
    (hown : FieldsEnsure src good G W own) (hinlined : FieldsEnsure src.buffered good G W inlined)
    {Q : Json → Prop} (hwhole : ∀ v, good v → Except.Ensures (src.whole v) Q) {v : ν}
    (hm : ∀ ms done key w before after, src.layer v = .map ms done →
      .entry key w before after ∈ ms → good w)
    (hi : ∀ xs done, src.layer v = .list xs done → ∀ x ∈ xs, good x) :
    Except.Ensures (decode src (.record shape own inlined) v)
      (Assembled shape W Q own inlined) := by
  simp only [decode]
  split
  · rename_i members done hlayer
    have hgood : ∀ key v before after, Member.entry key v before after ∈ members → good v :=
      fun key v before after => hm _ _ key v before after hlayer
    have hbare : ∀ key v before after,
        Member.entry key v before after ∈ members.map Member.bare → good v := by
      intro key v before after hb
      obtain ⟨m, hmem, heq⟩ := List.mem_map.1 hb
      cases m <;> cases heq
      exact hgood _ _ _ _ hmem
    -- Own fields are gathered and settled first, then further ones from what was set aside
    refine (hown.gather (Q := Q) hgood fun v hv => ?_).bind fun g hg =>
      (hg.1.mapError _).bind fun members hmembers =>
        ((hinlined.gather (Q := Q) hbare fun _ _ => ?_).mapError _).bind fun g' hg' =>
          (hg'.1.mapError _).bind fun more hmore => ?_
    · -- A member that no own field reads is kept as a whole, or not at all
      split
      · exact (hwhole v hv).map fun x hx w hw => Option.some.inj hw ▸ hx
      · exact Except.Ensures.map (P := fun _ => True) (fun _ _ => trivial) fun _ _ => by simp
    · intro _ h
      cases h
      simp
    · intro _ h
      cases h
      exact .ofMembers hg.2 hmore hmembers
  · rename_i items done hlayer
    split
    · -- A list is read only by records that say so, and to the end
      rename_i hpositional
      refine (decodeItems_ensures (fun v hv f hf => hown.read f hf v (hi _ _ hlayer v hv))
        hown.absent hown.settle).bind fun members hmembers => ?_
      split
      · intro _ h
        cases h
        exact .ofItems hpositional hmembers
      · intro _ h; cases h
    · intro _ h; cases h
  · intro _ h; cases h

end Parts

section Written

variable {fields : List (FieldInfo × Schema)} {members : List (String × Json)}

/-- Nothing is written under a key that no field has. -/
theorem Written.get?_reverse_eq_none {W : FieldInfo × Schema → Option Json → Prop}
    (h : Written W fields members) {k : String} (hk : ∀ f ∈ fields, f.1.key ≠ k) :
    Entries.get? members.reverse k = none := by
  induction h with
  | nil => rfl
  | absent _ _ ih => exact ih fun f hf => hk f (List.mem_cons_of_mem _ hf)
  | present _ _ ih =>
    rw [List.reverse_cons, Entries.get?_append, ih fun f hf => hk f (List.mem_cons_of_mem _ hf),
      Entries.get?_cons, if_neg (hk _ List.mem_cons_self).symm]
    rfl

/-- What is written under the key of a field is what is said of it. -/
theorem Written.get?_reverse {W : FieldInfo × Schema → Option Json → Prop}
    (h : Written W fields members) (hd : DistinctKeys fields) :
    ∀ f ∈ fields, W f (Entries.get? members.reverse f.1.key) := by
  induction h with
  | nil => simp
  | @absent g fields rest hg hrest ih =>
    obtain ⟨hne, hd⟩ := List.nodup_cons.1 hd
    intro f hf
    rcases List.mem_cons.1 hf with rfl | hf
    · -- A field that was left out has nothing under its key, as no other field has this key
      rwa [hrest.get?_reverse_eq_none fun f' hf' heq => hne (List.mem_map.2 ⟨f', hf', heq⟩)]
    · exact ih hd f hf
  | @present g fields rest v hg hrest ih =>
    obtain ⟨hne, hd⟩ := List.nodup_cons.1 hd
    intro f hf
    rw [List.reverse_cons, Entries.get?_append, Entries.get?_cons]
    rcases List.mem_cons.1 hf with rfl | hf
    · -- Its key comes only once
      rwa [hrest.get?_reverse_eq_none fun f' hf' heq => hne (List.mem_map.2 ⟨f', hf', heq⟩),
        if_pos rfl, Option.none_or]
    · -- The key of another field, whose entry is beside that of the first
      have hkey : f.1.key ≠ g.1.key := fun heq => hne (List.mem_map.2 ⟨f, hf, heq⟩)
      rw [if_neg hkey, Entries.get?_nil, Option.or_none]
      exact ih hd f hf

end Written

end Schema

end BuilderControl
