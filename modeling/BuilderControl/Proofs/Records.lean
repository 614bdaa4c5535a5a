import BuilderControl.Schema.Decode
import BuilderControl.Proofs.Document

/-!
# Reading records

Members of an object in key order are read one by one, so a record is read field by field: each
field is settled from the member under its key, and only from that.

## Key results

- `Schema.byFields`: induction over schemas
- `decodeMember_eq`: the field that reads a member
- `gather_ok`, `of_gather_ok`: what reading the members of an object gathers
- `settleAll_ok`, `of_settleAll_ok`: what settling the fields of a record gives
-/

namespace BuilderControl

namespace Except

variable {ε ε' α β : Type}

/-- A sequence of two steps succeeds if both of them do. -/
theorem bind_ok_iff {x : Except ε α} {f : α → Except ε β} {b : β} :
    (x >>= f) = .ok b ↔ ∃ a, x = .ok a ∧ f a = .ok b := by
  cases x <;> simp [bind, Except.bind]

/-- A result that is changed comes from a result. -/
theorem map_ok_iff {x : Except ε α} {f : α → β} {b : β} :
    x.map f = .ok b ↔ ∃ a, x = .ok a ∧ f a = b := by
  cases x <;> simp [Except.map]

/-- Changing the error leaves results alone. -/
theorem mapError_ok_iff {x : Except ε α} {f : ε → ε'} {a : α} :
    x.mapError f = .ok a ↔ x = .ok a := by
  cases x with
  | ok b => constructor <;> (intro h; cases h; rfl)
  | error e => exact ⟨nofun, nofun⟩

/-- Only results remain when errors are forgotten. -/
theorem toOption_eq_some {x : Except ε α} {a : α} : x.toOption = some a ↔ x = .ok a := by
  cases x <;> simp [Except.toOption]

end Except

namespace Schema

/-! ## Induction over schemas -/

/-- The schema of a field is smaller than the list of fields. -/
theorem sizeOf_lt_of_mem {f : FieldInfo × Schema} {fields : List (FieldInfo × Schema)}
    (h : f ∈ fields) : sizeOf f.2 < sizeOf fields := by
  have hmem := List.sizeOf_lt_of_mem h
  obtain ⟨info, schema⟩ := f
  simp only [Prod.mk.sizeOf_spec] at hmem
  simp only
  omega

/-- Induction over schemas: what holds of the schemas of all fields holds of the record. -/
@[elab_as_elim]
theorem byFields {motive : Schema → Prop} (text : motive .text) (flag : motive .flag)
    (integer : ∀ range, motive (.integer range)) (anything : motive .anything)
    (bytes : motive .bytes) (instant : motive .instant)
    (choice : ∀ options, motive (.choice options))
    (list : ∀ item, motive item → motive (.list item))
    (table : ∀ item, motive item → motive (.table item))
    (record : ∀ shape (own inlined : List (FieldInfo × Schema)), (∀ f ∈ own, motive f.2) →
      (∀ f ∈ inlined, motive f.2) → motive (.record shape own inlined)) : ∀ s, motive s
  | .text => text
  | .flag => flag
  | .integer range => integer range
  | .anything => anything
  | .bytes => bytes
  | .instant => instant
  | .choice options => choice options
  | .list item => list item
      (byFields text flag integer anything bytes instant choice list table record item)
  | .table item => table item
      (byFields text flag integer anything bytes instant choice list table record item)
  | .record shape own inlined => record shape own inlined
      (fun f _ => byFields text flag integer anything bytes instant choice list table record f.2)
      (fun f _ => byFields text flag integer anything bytes instant choice list table record f.2)
termination_by s => sizeOf s
decreasing_by
  all_goals simp_wf
  · have := sizeOf_lt_of_mem ‹f ∈ own›
    omega
  · have := sizeOf_lt_of_mem ‹f ∈ inlined›
    omega

/-! ## Reading members -/

/-- No two fields have one key. -/
def DistinctKeys (fields : List (FieldInfo × Schema)) : Prop := (fields.map (·.1.key)).Nodup

instance (fields : List (FieldInfo × Schema)) : Decidable (DistinctKeys fields) :=
  inferInstanceAs (Decidable (List.Nodup _))

/-- Keys that are distinct in two lists together are distinct in each of them, and from one to the
other. -/
theorem DistinctKeys.append {own inlined : List (FieldInfo × Schema)}
    (h : DistinctKeys (own ++ inlined)) :
    DistinctKeys own ∧ DistinctKeys inlined ∧ ∀ f ∈ own, ∀ g ∈ inlined, f.1.key ≠ g.1.key := by
  rw [DistinctKeys, List.map_append] at h
  obtain ⟨ho, hi, hne⟩ := List.nodup_append.1 h
  exact ⟨ho, hi, fun f hf g hg =>
    hne _ (List.mem_map.2 ⟨f, hf, rfl⟩) _ (List.mem_map.2 ⟨g, hg, rfl⟩)⟩

variable {ν : Type}

/-- A member is read by the first field of its key. -/
theorem decodeMember_eq (src : Source ν) (fields : List (FieldInfo × Schema)) (key : String)
    (v : ν) : decodeMember src fields key v =
      (fields.find? (·.1.key = key)).map fun f =>
        readGiven src f.1.presence v (decode src f.2) := by
  induction fields with
  | nil => rfl
  | cons f fields ih =>
    obtain ⟨info, schema⟩ := f
    simp only [decodeMember, List.find?_cons, ih]
    by_cases hk : info.key = key <;> simp [hk]

/-- Among distinct keys, a field is the first of its key. -/
theorem find?_of_mem {fields : List (FieldInfo × Schema)} (hd : DistinctKeys fields)
    {f : FieldInfo × Schema} (hf : f ∈ fields) :
    fields.find? (·.1.key = f.1.key) = some f := by
  induction fields with
  | nil => cases hf
  | cons g fields ih =>
    obtain ⟨hg, hd⟩ := List.nodup_cons.1 hd
    rw [List.find?_cons]
    rcases List.mem_cons.1 hf with rfl | hf
    · simp
    · have hne : g.1.key ≠ f.1.key := fun heq => hg (List.mem_map.2 ⟨f, hf, heq.symm⟩)
      simp only [hne, decide_false]
      exact ih hd hf

/-- Among distinct keys, fields of one key are the same. -/
theorem DistinctKeys.eq {fields : List (FieldInfo × Schema)} (hd : DistinctKeys fields)
    {f g : FieldInfo × Schema} (hf : f ∈ fields) (hg : g ∈ fields) (h : f.1.key = g.1.key) :
    f = g := by
  have hfind := find?_of_mem hd hf
  rw [h, find?_of_mem hd hg] at hfind
  exact (Option.some.inj hfind).symm

/-! ## Gathering members -/

section Gather

variable {unique : Bool} {read : String → Json → Option (Except DecodeError (Option Json))}
  {keep : Bool}

/-- What a source of documents in memory has for the members of an object. -/
def entriesOf (ms : Entries String Json) : List (Member Json) :=
  ms.map fun (k, v) => .entry k v none none

/-- What is kept of a member that no field reads. -/
def keptIf (keep : Bool) (v : Json) : Except DecodeError (Option Json) :=
  .ok (if keep then some v else none)

/-- The members that no field reads. -/
def unread (read : String → Json → Option (Except DecodeError (Option Json)))
    (ms : Entries String Json) : Entries String Json :=
  ms.filter fun e => (read e.1 e.2).isNone

variable (unique keep) in
/-- Gathering goes through the members of an object and adds to what was gathered before: what the
fields read, under their keys, and the members that no field reads, if these are kept. -/
private theorem foldlM_gatherMember {ms : Entries String Json} (hs : Entries.Sorted ms)
    (hok : ∀ e ∈ ms, ∀ r, read e.1 e.2 = some r → ∃ j, r = .ok j) {g : Gathered}
    (hnew : ∀ e ∈ ms, Entries.get? g.found e.1 = none) :
    ∃ g', (entriesOf ms).foldlM (gatherMember unique read (keptIf keep)) g = .ok g' ∧
      (∀ k, Entries.get? g'.found k = (Entries.get? g.found k).or
        ((Entries.get? ms k).bind fun v => (read k v).bind Except.toOption)) ∧
      g'.rest = g.rest ++ if keep then unread read ms else [] := by
  -- Keys are in order, so no member was found before it is read
  induction ms generalizing g with
  | nil => exact ⟨g, rfl, by simp, by simp [unread]⟩
  | cons e ms ih =>
    obtain ⟨k, v⟩ := e
    have hok' := fun e he => hok e (List.mem_cons_of_mem _ he)
    have hg : Entries.get? g.found k = none := hnew (k, v) List.mem_cons_self
    have htail : Entries.get? ms k = none := hs.get?_tail
    simp only [entriesOf, List.map_cons, List.foldlM_cons, gatherMember]
    cases hr : read k v with
    | none =>
      -- The member is kept or dropped; what was found stays
      obtain ⟨next, hnext, hnf, hnr⟩ : ∃ next : Gathered,
          next = (if keep then { g with rest := g.rest ++ [(k, v)] } else g) ∧
            next.found = g.found ∧ next.rest = g.rest ++ if keep then [(k, v)] else [] :=
        ⟨_, rfl, by cases keep <;> rfl, by cases keep <;> simp⟩
      obtain ⟨g', hg', hfound, hrest⟩ := ih hs.tail hok' (g := next)
        fun e he => hnf ▸ hnew e (List.mem_cons_of_mem _ he)
      refine ⟨g', ?_, fun k' => ?_, ?_⟩
      · -- What is gathered, what is found, and what is left over
        rw [← hg', hnext]
        cases keep <;> rfl
      · rw [hfound, hnf, Entries.get?_cons]
        by_cases hk : k' = k
        · subst hk
          simp [htail, hr]
        · rw [if_neg hk]
      · rw [hrest, hnr]
        cases keep <;> simp [unread, hr]
    | some r =>
      -- The member is read; the later ones have other keys
      obtain ⟨j, rfl⟩ := hok (k, v) List.mem_cons_self r hr
      -- A later member has another key, so it was not found before either
      have hnew' : ∀ e ∈ ms, Entries.get? (Entries.insert g.found k j) e.1 = none := by
        intro e he
        have hne : e.1 ≠ k := fun heq => by
          have hmem := hs.tail.get?_of_mem (v := e.2) he
          rw [heq, htail] at hmem
          cases hmem
        rw [Entries.get?_insert, if_neg hne, hnew e (List.mem_cons_of_mem _ he)]
      obtain ⟨g', hg', hfound, hrest⟩ := ih hs.tail hok'
        (g := { g with found := Entries.insert g.found k j }) hnew'
      refine ⟨g', ?_, fun k' => ?_, ?_⟩
      · rw [← hg']
        simp [Entries.contains, hg]
        rfl
      · rw [hfound, Entries.get?_insert, Entries.get?_cons]
        by_cases hk : k' = k
        · subst hk
          simp [hg, hr, Except.toOption]
        · rw [if_neg hk, if_neg hk]
      · rw [hrest]
        simp [unread, hr]

variable (unique keep) in
/-- If all its fields are read, an object is gathered. -/
theorem gather_ok {ms : Entries String Json} (hs : Entries.Sorted ms)
    (hok : ∀ e ∈ ms, ∀ r, read e.1 e.2 = some r → ∃ j, r = .ok j) :
    ∃ g, gather unique read (keptIf keep) (entriesOf ms) = .ok g ∧
      (∀ k, Entries.get? g.found k =
        (Entries.get? ms k).bind fun v => (read k v).bind Except.toOption) ∧
      g.rest = if keep then unread read ms else [] := by
  obtain ⟨g, hg, hfound, hrest⟩ :=
    foldlM_gatherMember unique keep hs hok (g := {}) fun _ _ => rfl
  exact ⟨g, hg, by simpa using hfound, by simpa using hrest⟩

/-- If an object is gathered, all its fields are read. -/
theorem of_gather_ok {other : Json → Except DecodeError (Option Json)}
    {ms : Entries String Json} {g : Gathered}
    (h : gather unique read other (entriesOf ms) = .ok g) :
    ∀ e ∈ ms, ∀ r, read e.1 e.2 = some r → ∃ j, r = .ok j := by
  rw [gather] at h
  generalize hstart : ({} : Gathered) = start at h
  clear hstart
  -- Whether members are read does not depend on what was gathered before them
  induction ms generalizing start with
  | nil => simp
  | cons e ms ih =>
    obtain ⟨k, v⟩ := e
    simp only [entriesOf, List.map_cons, List.foldlM_cons, Except.bind_ok_iff] at h
    obtain ⟨next, hnext, h⟩ := h
    intro e he r hr
    rcases List.mem_cons.1 he with rfl | he
    · simp only [gatherMember, hr] at hnext
      split at hnext
      · cases hnext
      · cases r with
        | ok j => exact ⟨j, rfl⟩
        | error e => cases hnext
    · exact ih next h e he r hr

end Gather

/-! ## Settling fields -/

section Settle

variable {found : Entries String (Option Json)} {fields : List (FieldInfo × Schema)}

/-- If all fields are settled, so is the record. -/
theorem settleAll_ok {written : FieldInfo × Schema → Option Json}
    (h : ∀ f ∈ fields, settle f.1 (Entries.get? found f.1.key).join = .ok (written f)) :
    settleAll found fields = .ok (fields.filterMap fun f => (written f).map (f.1.key, ·)) := by
  induction fields with
  | nil => rfl
  | cons f fields ih =>
    obtain ⟨info, schema⟩ := f
    have hf := h (info, schema) List.mem_cons_self
    simp only [settleAll, hf, ih fun f hf => h f (List.mem_cons_of_mem _ hf), List.filterMap_cons]
    cases written (info, schema) <;> rfl

/-- If the record is settled, so are all its fields. -/
theorem of_settleAll_ok {members : List (String × Json)} (h : settleAll found fields = .ok members) :
    ∀ f ∈ fields, ∃ w, settle f.1 (Entries.get? found f.1.key).join = .ok w := by
  induction fields generalizing members with
  | nil => simp
  | cons f fields ih =>
    obtain ⟨info, schema⟩ := f
    simp only [settleAll, Except.bind_ok_iff] at h
    obtain ⟨w, hw, rest, hrest, -⟩ := h
    intro f hf
    rcases List.mem_cons.1 hf with rfl | hf
    · exact ⟨w, hw⟩
    · exact ih hrest f hf

/-- Nothing is written under a key that no field has. -/
theorem get?_written_eq_none {written : FieldInfo × Schema → Option Json} {key : String}
    (h : ∀ f ∈ fields, f.1.key ≠ key) :
    Entries.get? (fields.filterMap fun f => (written f).map (f.1.key, ·)).reverse key = none := by
  refine Entries.get?_eq_none_of_forall_ne fun e he => ?_
  obtain ⟨f, hf, he⟩ := List.mem_filterMap.1 (List.mem_reverse.1 he)
  obtain ⟨v, -, rfl⟩ := Option.map_eq_some_iff.1 he
  exact h f hf

/-- What stands under the key of a field among the members that are written. -/
theorem get?_written {written : FieldInfo × Schema → Option Json} (hd : DistinctKeys fields)
    {f : FieldInfo × Schema} (hf : f ∈ fields) :
    Entries.get? (fields.filterMap fun f => (written f).map (f.1.key, ·)).reverse f.1.key =
      written f := by
  induction fields with
  | nil => cases hf
  | cons g fields ih =>
    obtain ⟨hg, hd⟩ := List.nodup_cons.1 hd
    have hcons : ((g :: fields).filterMap fun f => (written f).map (f.1.key, ·)).reverse =
        (fields.filterMap fun f => (written f).map (f.1.key, ·)).reverse ++
          ((written g).map (g.1.key, ·)).toList := by
      rw [List.filterMap_cons]
      cases written g <;> simp
    -- The list is reversed, but the keys are distinct, so at most one entry has the key
    rw [hcons, Entries.get?_append]
    rcases List.mem_cons.1 hf with rfl | hf
    · -- The field at hand is the first one, and no other has its key
      rw [get?_written_eq_none fun f' hf' heq => hg (List.mem_map.2 ⟨f', hf', heq⟩)]
      cases written f <;> simp [Entries.get?_cons]
    · -- The field at hand is a later one
      have hne : f.1.key ≠ g.1.key := fun heq => hg (List.mem_map.2 ⟨f, hf, heq⟩)
      rw [ih hd hf]
      cases written f <;> cases written g <;> simp [Entries.get?_cons, hne]

end Settle

/-! ## Members that no field reads -/

/-- The texts of two members. -/
def textPair : Option Json → Option Json → Option (String × String)
  | some (.str a), some (.str b) => some (a, b)
  | _, _ => none

/-- An identity is taken from the texts that are given already and those that are still to come. -/
private theorem takeIdentity_fst_or {ms : Entries String Json} (hs : Entries.Sorted ms)
    {version kind : Option String} (hv : version = none ∨ Entries.get? ms "apiVersion" = none)
    (hk : kind = none ∨ Entries.get? ms "kind" = none) :
    (takeIdentity ms version kind).1 = textPair
      ((version.map Json.str).or (Entries.get? ms "apiVersion"))
      ((kind.map Json.str).or (Entries.get? ms "kind")) := by
  -- A text that was taken is not taken again, as its key does not come a second time
  induction ms generalizing version kind with
  | nil => cases version <;> cases kind <;> rfl
  | cons m ms ih =>
    obtain ⟨k, v⟩ := m
    have htail := hs.get?_tail
    rw [Entries.get?_cons] at hv hk
    rw [Entries.get?_cons, Entries.get?_cons]
    by_cases hversion : k = "apiVersion"
    · subst hversion
      have hnone : version = none := hv.resolve_right (by simp)
      subst hnone
      rw [if_neg (by simp)] at hk
      cases v with
      | str s =>
        refine (@ih hs.tail (some s) kind (Or.inr htail) hk).trans ?_
        simp
      | _ => rfl
    · by_cases hkind : k = "kind"
      · subst hkind
        have hnone : kind = none := hk.resolve_right (by simp)
        subst hnone
        rw [if_neg (by simp)] at hv
        cases v with
        | str s =>
          refine (@ih hs.tail version (some s) hv (Or.inr htail)).trans ?_
          simp
        | _ =>
          -- Whatever the version is, a kind that is no text makes no identity
          rw [if_pos rfl, if_neg (by simp)]
          generalize (version.map Json.str).or (Entries.get? ms "apiVersion") = first
          cases first with
          | none => rfl
          | some first => cases first <;> rfl
      · rw [if_neg (Ne.symm hversion)] at hv ⊢
        rw [if_neg (Ne.symm hkind)] at hk ⊢
        rw [← ih hs.tail hv hk]
        simp [takeIdentity, hversion, hkind]

/-- An identity is complete when both of its members are texts. -/
theorem takeIdentity_fst {ms : Entries String Json} (hs : Entries.Sorted ms) :
    (takeIdentity ms none none).1 =
      textPair (Entries.get? ms "apiVersion") (Entries.get? ms "kind") := by
  rw [takeIdentity_fst_or hs (Or.inl rfl) (Or.inl rfl)]
  rfl

/-- What is left after an identity is taken is part of what there was. -/
theorem takeIdentity_snd_sublist (ms : List (String × Json)) (version kind : Option String) :
    (takeIdentity ms version kind).2.Sublist ms := by
  induction ms generalizing version kind with
  | nil => cases version <;> cases kind <;> exact List.Sublist.refl _
  | cons m ms ih =>
    obtain ⟨k, v⟩ := m
    have hdrop := List.sublist_cons_self (k, v) ms
    by_cases hk : k = "apiVersion" ∨ k = "kind"
    · simp only [takeIdentity, hk, if_true]
      split
      · split <;> exact (ih _ _).trans hdrop
      · exact hdrop
    · simp only [takeIdentity, hk, if_false]
      exact (ih version kind).cons_cons _

/-- Fields come before what else is kept. -/
theorem get?_assemble (shape : RecordShape) (rest fields : List (String × Json)) (k : String) :
    (assemble shape rest fields).get? k =
      (Entries.get? fields.reverse k).or ((assemble shape rest []).get? k) := by
  simp only [assemble, Json.object, Json.get?_obj, Entries.get?_ofList, List.reverse_append,
    Entries.get?_append, List.reverse_nil, Entries.get?_nil, Option.none_or]

/-- Of several members under one key the last counts: own fields come after further fields, and
these after what is kept. -/
theorem get?_assemble_append (shape : RecordShape) (rest more fields : List (String × Json))
    (k : String) :
    (assemble shape rest (more ++ fields)).get? k =
      ((Entries.get? fields.reverse k).or (Entries.get? more.reverse k)).or
        ((assemble shape rest []).get? k) := by
  rw [get?_assemble, List.reverse_append, Entries.get?_append]

/-- A record that does not keep other members has none. -/
theorem get?_assemble_of_drops {shape : RecordShape} (hi : shape.identified = false)
    (hk : shape.keepsRest = false) (rest : List (String × Json)) (k : String) :
    (assemble shape rest []).get? k = none := by
  simp only [assemble, hi, hk]
  rfl

/-- What is kept of an embedded identity, if it is all that is kept. -/
theorem get?_assemble_identity {shape : RecordShape} (hi : shape.identified = true)
    (hk : shape.keepsRest = false) (rest : List (String × Json)) (k : String) :
    (assemble shape rest []).get? k =
      match (takeIdentity rest none none).1 with
      | some (version, kind) =>
        if k = "kind" then some (.str kind)
        else if k = "apiVersion" then some (.str version) else none
      | none => none := by
  simp only [assemble, hi, hk, if_true]
  generalize (takeIdentity rest none none).1 = identity
  cases identity with
  | none => rfl
  | some identity => simp [Json.object, Entries.get?_ofList, Entries.get?_cons]

/-- A record that embeds an identity has both of its members, or neither. -/
theorem get?_assemble_identified {shape : RecordShape} (hi : shape.identified = true)
    (hk : shape.keepsRest = false) {rest : Entries String Json} (hs : Entries.Sorted rest)
    (k : String) :
    (assemble shape rest []).get? k =
      match textPair (Entries.get? rest "apiVersion") (Entries.get? rest "kind") with
      | some (version, kind) =>
        if k = "kind" then some (.str kind)
        else if k = "apiVersion" then some (.str version) else none
      | none => none := by
  rw [get?_assemble_identity hi hk, takeIdentity_fst hs]

/-- A record that keeps all other members has them. -/
theorem get?_assemble_of_keeps {shape : RecordShape} (hi : shape.identified = false)
    (hk : shape.keepsRest = true) (rest : List (String × Json)) (k : String) :
    (assemble shape rest []).get? k = Entries.get? rest.reverse k := by
  simp [assemble, hi, hk, Json.object, Entries.get?_ofList]

/-- A pair of texts is made of two texts. -/
theorem textPair_eq_some {a b : Option Json} {version kind : String} :
    textPair a b = some (version, kind) ↔ a = some (.str version) ∧ b = some (.str kind) := by
  unfold textPair
  split
  · simp
  · -- The second case of `textPair` is that one of them is no text
    rename_i h
    simp only [reduceCtorEq, false_iff, not_and]
    rintro rfl rfl
    exact h _ _ rfl rfl

/-- Nothing is made up: what is kept was there. -/
theorem get?_assemble_eq_none (shape : RecordShape) {rest : Entries String Json}
    (hs : Entries.Sorted rest) {k : String} (h : Entries.get? rest k = none) :
    (assemble shape rest []).get? k = none := by
  have hne : ∀ e ∈ rest, e.1 ≠ k := by
    intro e he heq
    rw [← heq, hs.get?_of_mem (v := e.2) he] at h
    cases h
  -- What is left after an identity is taken does not have the key either
  have hleft : ∀ e ∈ (takeIdentity rest none none).2, e.1 ≠ k := fun e he =>
    hne e ((takeIdentity_snd_sublist rest none none).subset he)
  simp only [assemble, Json.object, Json.get?_obj, Entries.get?_ofList]
  refine Entries.get?_eq_none_of_forall_ne fun e he => ?_
  simp only [List.append_nil, List.reverse_append, List.mem_append, List.mem_reverse] at he
  rcases he with he | he
  · -- A member of the identity, which is complete
    cases hid : shape.identified with
    | false => simp [hid] at he
    | true =>
      simp only [hid, if_true, takeIdentity_fst hs] at he
      cases hpair : textPair (Entries.get? rest "apiVersion") (Entries.get? rest "kind") with
      | none => simp [hpair] at he
      | some identity =>
        obtain ⟨hversion, hkind⟩ := textPair_eq_some.1 hpair
        simp only [hpair, List.mem_cons, List.not_mem_nil, or_false] at he
        rcases he with rfl | rfl
        · exact hne _ (Entries.mem_of_get? hversion)
        · exact hne _ (Entries.mem_of_get? hkind)
  · split at he
    · split at he
      · exact hleft e he
      · exact hne e he
    · cases he

/-! ## Objects -/

/-- What is read as a record is an object. -/
theorem isObject_decode_record {src : Source ν} {shape : RecordShape}
    {own inlined : List (FieldInfo × Schema)} {v : ν} {x : Json}
    (h : decode src (.record shape own inlined) v = .ok x) : x.isObject = true := by
  simp only [decode] at h
  split at h
  · simp only [Except.bind_ok_iff] at h
    obtain ⟨_, -, _, -, _, -, _, -, h⟩ := h
    cases h
    rfl
  · split at h
    · obtain ⟨fields, -, h⟩ := Except.bind_ok_iff.1 h
      split at h <;> cases h
      rfl
    · cases h
  · cases h

/-- What is read as a table is an object. -/
theorem isObject_decode_table {src : Source ν} {item : Schema} {v : ν} {x : Json}
    (h : decode src (.table item) v = .ok x) : x.isObject = true := by
  simp only [decode] at h
  split at h
  · obtain ⟨entries, -, h⟩ := Except.bind_ok_iff.1 h
    cases h
    rfl
  · cases h

end Schema

end BuilderControl
