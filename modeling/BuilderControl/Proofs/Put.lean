import BuilderControl.Proofs.Settled

/-!
# Setting values at places of a document

Setting a value is the same before a document is compared, in the patch that the comparison gives,
and after the patch was applied.  Each of these is first shown for one place, by recursion along
its names, and then for several places below different members.

## Key results

- `Json.change_putAll`: only values that were not there before are in the patch
- `Json.merge_putAll`: a patch that only sets values sets them wherever it is applied
- `Json.at?_putAll`: everything else stays as it is
-/

namespace BuilderControl

namespace Json

/-! ## One place -/

/-- The document with a value at a place; objects that lead there are made if there are none. -/
def put (j : Json) : List String → Json → Json
  | [], v => v
  | k :: names, v => j.set k (put (ofOption (j.get? k)) names v)

/-- A value can be set at a place without anything being lost but the value there. -/
def HasRoom (j : Json) : List String → Prop
  | [] => j.isObject = false
  | k :: names => j.isObject = true ∧ ∀ v, j.get? k = some v → HasRoom v names

/-- Without a field, the value replaces the document. -/
@[simp] theorem put_nil (j v : Json) : j.put [] v = v := rfl

/-- A value is put below the member that the first field leads to. -/
theorem put_cons (j : Json) (k : String) (names : List String) (v : Json) :
    j.put (k :: names) v = j.set k ((ofOption (j.get? k)).put names v) := rfl

/-- Only `null` can make a document `null`. -/
theorem put_ne_null (j : Json) (names : List String) {v : Json} (h : v ≠ .null) :
    j.put names v ≠ .null := by
  cases names with
  | nil => exact h
  | cons k names => simp [put_cons, set]

/-- A document that may be missing is well-formed if it is when it is there. -/
theorem WellFormed.ofOption {j : Option Json} (h : ∀ v, j = some v → v.WellFormed) :
    (Json.ofOption j).WellFormed := by
  rw [ofOption_eq_getD]
  exact WellFormed.getD h

/-- A well-formed value keeps the document well-formed. -/
theorem WellFormed.put {j v : Json} (hj : j.WellFormed) (names : List String) (hv : v.WellFormed) :
    (j.put names v).WellFormed := by
  induction names generalizing j with
  | nil => exact hv
  | cons k names ih => exact hj.set (ih (WellFormed.ofOption fun _ h => hj.get? h)) k

/-- Only the member that the first field leads to is changed. -/
theorem get?_put_cons (j : Json) (k : String) (names : List String) (v : Json) (k' : String) :
    (j.put (k :: names) v).get? k' =
      if k' = k then some ((ofOption (j.get? k)).put names v) else j.get? k' :=
  get?_set j k _ k'

/-- The value is where it was put. -/
theorem at?_put_self (j : Json) (names : List String) (v : Json) :
    (j.put names v).at? names = some v := by
  induction names generalizing j with
  | nil => rfl
  | cons k names ih =>
    rw [at?_cons, get?_put_cons, if_pos rfl, Option.bind_some]
    exact ih _

/-- A place that leads elsewhere is not touched. -/
theorem at?_put_of_apart (j v : Json) {place names : List String} (h : ¬ place <+: names)
    (h' : ¬ names <+: place) : (j.put place v).at? names = j.at? names := by
  induction names generalizing j place with
  | nil => exact absurd List.nil_prefix h'
  | cons k names ih =>
    cases place with
    | nil => exact absurd List.nil_prefix h
    | cons l place =>
      rw [at?_cons, at?_cons, get?_put_cons]
      -- Both places may go through the same member
      split
      · rename_i hk
        subst hk
        rw [List.cons_prefix_cons] at h h'
        have hne : names ≠ [] := fun hnil => h' ⟨rfl, hnil ▸ List.nil_prefix⟩
        rw [Option.bind_some, ih (ofOption (j.get? k)) (fun hp => h ⟨rfl, hp⟩)
          (fun hp => h' ⟨rfl, hp⟩)]
        cases hg : j.get? k with
        | some w => rfl
        | none =>
          -- Nothing is below what is not there
          cases names with
          | nil => exact absurd rfl hne
          | cons l names => rfl
      · rfl

/-- Whatever was somewhere before, something is still there. -/
theorem isSome_at?_put {j : Json} (v : Json) {place names : List String} (hroom : j.HasRoom place)
    (h : (j.at? names).isSome) : ((j.put place v).at? names).isSome := by
  induction names generalizing j place with
  | nil => rfl
  | cons k names ih =>
    cases place with
    | nil =>
      -- There is nothing below a value that makes room
      rw [at?_cons, Json.get?, members_of_not_isObject hroom] at h
      cases h
    | cons l place =>
      rw [at?_cons] at h ⊢
      rw [get?_put_cons]
      split
      · rename_i hk
        subst hk
        cases hg : j.get? k with
        | none => rw [hg] at h; cases h
        | some w =>
          rw [hg] at h
          exact ih (hroom.2 w hg) h
      · exact h

/-- A patch for one member. -/
theorem merge_singleton (j : Json) (k : String) {v : Json} (h : v ≠ .null) :
    merge j (.obj [(k, v)]) = j.set k (merge ((j.get? k).getD .null) v) := by
  have hfalse : v.isNull = false := Bool.eq_false_iff.2 fun hv => h (isNull_iff.1 hv)
  simp only [merge_obj, mergeMembers, hfalse, Bool.false_eq_true, if_false]
  rfl

/-- Merged onto anything, a value at a place is set at that place. -/
theorem mergeMember_put (old : Option Json) (names : List String) {v : Json}
    (ho : v.isObject = false) (hn : v ≠ .null) :
    mergeMember old (some (put .null names v)) = some ((ofOption old).put names v) := by
  -- By induction on the place: a patch for one member sets it, and goes on below
  induction names generalizing old with
  | nil => rw [put_nil, mergeMember_some _ hn, merge_of_not_isObject _ ho, put_nil]
  | cons k names ih =>
    have hnull : put .null names v ≠ .null := put_ne_null _ _ hn
    have hmember := ih ((ofOption old).get? k)
    rw [mergeMember_some _ hnull] at hmember
    have hset : put .null (k :: names) v = .obj [(k, put .null names v)] := rfl
    rw [mergeMember_some _ (put_ne_null _ _ hn), hset, merge_singleton _ _ hnull,
      ← ofOption_eq_getD, Option.some.inj hmember, put_cons]

/-- A patch that sets a value says nothing else. -/
theorem change_put {observed : Option Json} {names : List String} {v : Json}
    (hw : ∀ j, observed = some j → j.WellFormed)
    (hroom : ∀ j, observed = some j → j.HasRoom names) (ho : v.isObject = false)
    (hn : v ≠ .null) :
    change observed ((ofOption observed).put names v) =
      if (observed.bind (·.at? names)).map canon = some v.canon then none
      else some (put .null names v) := by
  induction names generalizing observed with
  | nil =>
    rw [put_nil, put_nil, change_of_not_isObject observed ho hn]
    cases observed <;> rfl
  | cons k names ih =>
    cases observed with
    | none =>
      rw [change_none (put_ne_null _ _ hn)]
      rfl
    | some j =>
      obtain ⟨ms, rfl⟩ := isObject_iff.1 (hroom j rfl).1
      have hms := hw _ rfl
      have hmember := ih (fun w hg => hms.member hg) (fun w hg => (hroom _ rfl).2 w hg)
      have hput : (Json.obj ms).put (k :: names) v =
        .obj (Entries.insert ms k ((ofOption (Entries.get? ms k)).put names v)) := rfl
      -- The other members are the same on both sides, so the patch is silent about them
      have hdifference : difference ms
          (Entries.insert ms k ((ofOption (Entries.get? ms k)).put names v)) =
            if ((Entries.get? ms k).bind (·.at? names)).map canon = some v.canon then []
            else [(k, put .null names v)] := by
        refine (sorted_difference _ _).ext ?_ fun l => ?_
        · split
          · exact Entries.sorted_nil
          · exact Entries.sorted_singleton _
        · rw [get?_difference ms (hms.sorted.insert k _), Entries.get?_insert]
          -- The member that is set is compared by the induction hypothesis
          by_cases hl : l = k
          · subst hl
            rw [if_pos rfl, changeMember_some, hmember]
            split <;> simp [Entries.get?_cons]
          · rw [if_neg hl, changeMember_self fun w hg => hms.member hg]
            split <;> simp [Entries.get?_cons, hl]
      rw [show ofOption (some (Json.obj ms)) = .obj ms from rfl, hput, change_obj_obj, hdifference,
        Option.bind_some, at?_cons, get?_obj]
      split
      · rfl
      · rfl

/-! ## Several places -/

/-- Values for places below different members: each has the member's key, the names that lead on
from there, and the value. -/
abbrev Placements := Entries String (List String × Json)

/-- The document with all the values at their places. -/
def putAll (j : Json) (places : Placements) : Json :=
  places.foldl (fun j p => j.put (p.1 :: p.2.1) p.2.2) j

/-- Whether a value is at its place already. -/
def holds (j : Json) (place : String × List String × Json) : Bool :=
  (j.at? (place.1 :: place.2.1)).any (·.same place.2.2)

/-- Values that are not at their places. -/
def pending (j : Json) (places : Placements) : Placements := places.filter fun p => !j.holds p

/-- Values that a patch can set: `null` would be taken as a removal, and an object would be merged. -/
structure Placements.Settable (places : Placements) : Prop where
  distinct : (places.map Prod.fst).Nodup
  wellFormed : ∀ p ∈ places, p.2.2.WellFormed
  not_isObject : ∀ p ∈ places, p.2.2.isObject = false
  ne_null : ∀ p ∈ places, p.2.2 ≠ .null

section PutAll

variable {places : Placements}

/-- Some of the values that a patch can set can be set as well. -/
theorem Placements.Settable.sublist {more : Placements} (h : more.Settable)
    (hs : places.Sublist more) : places.Settable where
  distinct := h.distinct.sublist (hs.map _)
  wellFormed := fun p hp => h.wellFormed p (hs.subset hp)
  not_isObject := fun p hp => h.not_isObject p (hs.subset hp)
  ne_null := fun p hp => h.ne_null p (hs.subset hp)

/-- Values that are not at their places yet can be set as well. -/
theorem Placements.Settable.pending (h : places.Settable) (j : Json) :
    (j.pending places).Settable :=
  h.sublist List.filter_sublist

/-- Well-formed values keep the document well-formed. -/
theorem WellFormed.putAll {j : Json} (hj : j.WellFormed) (h : ∀ p ∈ places, p.2.2.WellFormed) :
    (j.putAll places).WellFormed := by
  induction places generalizing j with
  | nil => exact hj
  | cons p places ih =>
    exact ih (hj.put _ (h p List.mem_cons_self)) fun q hq => h q (List.mem_cons_of_mem _ hq)

/-- An object stays an object. -/
theorem isObject_putAll {j : Json} (hj : j.isObject = true) :
    (j.putAll places).isObject = true := by
  induction places generalizing j with
  | nil => exact hj
  | cons p places ih => exact ih rfl

/-- A member has at most one place below it. -/
theorem get?_putAll (j : Json) (hd : (places.map Prod.fst).Nodup) (k : String) :
    (j.putAll places).get? k = match Entries.get? places k with
      | some (names, v) => some ((ofOption (j.get? k)).put names v)
      | none => j.get? k := by
  induction places generalizing j with
  | nil => rfl
  | cons p places ih =>
    obtain ⟨l, names, v⟩ := p
    obtain ⟨hl, hrest⟩ := List.nodup_cons.1 hd
    show ((j.put (l :: names) v).putAll places).get? k = _
    rw [ih _ hrest, get?_put_cons, Entries.get?_cons]
    by_cases hk : k = l
    · subst hk
      -- No other value is below this member
      have hnone : Entries.get? places k = none :=
        Entries.get?_eq_none_of_forall_ne fun e he heq => hl (List.mem_map.2 ⟨e, he, heq⟩)
      simp [hnone]
    · simp [hk]

/-- What is pending below a member is what is to be set there, unless it is there already. -/
theorem get?_pending (j : Json) (hd : (places.map Prod.fst).Nodup) (k : String) :
    Entries.get? (j.pending places) k =
      (Entries.get? places k).filter fun p => !j.holds (k, p) := by
  induction places with
  | nil => rfl
  | cons p places ih =>
    obtain ⟨l, p⟩ := p
    obtain ⟨hl, hrest⟩ := List.nodup_cons.1 hd
    -- The key is given only once, so a value that is there already leaves none pending
    have hnone : k = l → Entries.get? places k = none := fun hk =>
      Entries.get?_eq_none_of_forall_ne fun e he heq => hl (List.mem_map.2 ⟨e, he, heq.trans hk⟩)
    rw [pending] at ih ⊢
    rw [List.filter_cons, Entries.get?_cons]
    by_cases hk : k = l
    · subst hk
      split
      · rename_i hholds
        simp [Entries.get?_cons, Option.filter, hholds]
      · rename_i hholds
        rw [ih hrest, hnone rfl]
        simp [Option.filter, hholds]
    · rw [if_neg hk, ← ih hrest]
      split
      · rw [Entries.get?_cons, if_neg hk]
      · rfl

/-- Nothing is set only if there are no values. -/
theorem members_putAll_eq_nil_iff (hd : (places.map Prod.fst).Nodup) :
    ((Json.obj []).putAll places).members = [] ↔ places = [] := by
  constructor
  · intro h
    cases places with
    | nil => rfl
    | cons p places =>
      obtain ⟨k, names, v⟩ := p
      have hget := get?_putAll (.obj []) hd k
      rw [Json.get?, h, Entries.get?_cons, if_pos rfl] at hget
      cases hget
  · rintro rfl
    rfl

/-- A value is at its place if the value there is the same. -/
theorem holds_iff {j : Json} {p : String × List String × Json} :
    j.holds p = true ↔ (j.at? (p.1 :: p.2.1)).map canon = some p.2.2.canon := by
  rw [holds]
  cases j.at? (p.1 :: p.2.1) with
  | none => simp
  | some v => simp [same_iff]

/-- Two objects that differ in the values of some places are compared to a patch that sets those
values that are not there yet. -/
private theorem difference_putAll {os : Entries String Json} (h : places.Settable)
    (ho : (Json.obj os).WellFormed)
    (hroom : ∀ p ∈ places, (Json.obj os).HasRoom (p.1 :: p.2.1)) :
    difference os ((Json.obj os).putAll places).members =
      ((Json.obj []).putAll ((Json.obj os).pending places)).members := by
  have hempty : (Json.obj []).WellFormed := wellFormed_obj.2 ⟨Entries.sorted_nil, by simp⟩
  have hdesired := (ho.putAll h.wellFormed).members_sorted
  have hpending := h.pending (.obj os)
  refine (sorted_difference _ _).ext (hempty.putAll hpending.wellFormed).members_sorted fun k => ?_
  rw [get?_difference os hdesired]
  show changeMember (Entries.get? os k) (((Json.obj os).putAll places).get? k) =
    ((Json.obj []).putAll ((Json.obj os).pending places)).get? k
  rw [get?_putAll _ h.distinct, get?_putAll _ hpending.distinct, get?_pending _ h.distinct]
  cases hp : Entries.get? places k with
  -- Without a value to set, the member is the same on both sides
  | none => exact changeMember_self fun w hg => ho.member hg
  | some p =>
    obtain ⟨names, v⟩ := p
    have hmem := Entries.mem_of_get? hp
    have hholds : (Json.obj os).holds (k, names, v) = true ↔
        ((Entries.get? os k).bind (·.at? names)).map canon = some v.canon := holds_iff
    simp only [get?_obj, changeMember_some]
    rw [change_put (fun w hg => ho.member hg) (fun w hg => (hroom _ hmem).2 w hg)
      (h.not_isObject _ hmem) (h.ne_null _ hmem)]
    -- Both sides leave out a value that is there already
    split
    · rename_i hsame
      simp [Option.filter, hholds.2 hsame]
    · rename_i hsame
      have hfalse := Bool.eq_false_iff.2 (mt hholds.1 hsame)
      simp only [Option.filter, hfalse]
      rfl

/-- Only values that were not there before are in the patch. -/
theorem change_putAll {os : Entries String Json} (h : places.Settable)
    (ho : (Json.obj os).WellFormed)
    (hroom : ∀ p ∈ places, (Json.obj os).HasRoom (p.1 :: p.2.1)) :
    change (some (.obj os)) ((Json.obj os).putAll places) =
      if (Json.obj os).pending places = [] then none
      else some ((Json.obj []).putAll ((Json.obj os).pending places)) := by
  have hdifference := difference_putAll h ho hroom
  have hnil := members_putAll_eq_nil_iff (h.pending (.obj os)).distinct
  obtain ⟨ds, hds⟩ : ∃ ds, (Json.obj os).putAll places = .obj ds :=
    isObject_iff.1 (isObject_putAll rfl)
  obtain ⟨ps, hps⟩ : ∃ ps, (Json.obj []).putAll ((Json.obj os).pending places) = .obj ps :=
    isObject_iff.1 (isObject_putAll rfl)
  rw [hds, hps, members_obj, members_obj] at hdifference
  rw [hps, members_obj] at hnil
  rw [hds, hps, change_obj_obj]
  simp only [hdifference, hnil]

/-- A patch that only sets values sets them wherever it is applied. -/
theorem merge_putAll {j : Json} (h : places.Settable) (hj : j.WellFormed)
    (hobj : j.isObject = true) : j.merge ((Json.obj []).putAll places) = j.putAll places := by
  have hempty : (Json.obj []).WellFormed := wellFormed_obj.2 ⟨Entries.sorted_nil, by simp⟩
  have hpatch := hempty.putAll h.wellFormed
  obtain ⟨changes, hchanges⟩ : ∃ changes, (Json.obj []).putAll places = .obj changes :=
    isObject_iff.1 (isObject_putAll rfl)
  have hget (k : String) := get?_putAll (.obj []) h.distinct k
  rw [hchanges] at hpatch hget ⊢
  -- Both sides are objects, so they are compared key by key
  refine (hj.merge hpatch).ext (hj.putAll h.wellFormed) rfl (isObject_putAll hobj) fun k => ?_
  rw [get?_merge hj hpatch.sorted, ← get?_obj, hget, get?_putAll _ h.distinct]
  cases hp : Entries.get? places k with
  | none => rfl
  | some p =>
    have hmem := Entries.mem_of_get? hp
    exact mergeMember_put _ _ (h.not_isObject _ hmem) (h.ne_null _ hmem)

/-- Everything else stays as it is. -/
theorem at?_putAll (j : Json) {names : List String}
    (h : ∀ p ∈ places, ¬ (p.1 :: p.2.1) <+: names ∧ ¬ names <+: (p.1 :: p.2.1)) :
    (j.putAll places).at? names = j.at? names := by
  induction places generalizing j with
  | nil => rfl
  | cons p places ih =>
    obtain ⟨hp, hp'⟩ := h p List.mem_cons_self
    exact (ih _ fun q hq => h q (List.mem_cons_of_mem _ hq)).trans (at?_put_of_apart j _ hp hp')

/-- Every value is at its place. -/
theorem at?_putAll_of_mem (j : Json) (hd : (places.map Prod.fst).Nodup)
    {p : String × List String × Json} (hp : p ∈ places) :
    (j.putAll places).at? (p.1 :: p.2.1) = some p.2.2 := by
  induction places generalizing j with
  | nil => cases hp
  | cons q places ih =>
    obtain ⟨hq, hrest⟩ := List.nodup_cons.1 hd
    show ((j.put (q.1 :: q.2.1) q.2.2).putAll places).at? (p.1 :: p.2.1) = some p.2.2
    rcases List.mem_cons.1 hp with rfl | hp
    · -- What is set after it is below other keys
      have hapart : ∀ r ∈ places, r.1 ≠ p.1 := fun r hr heq =>
        hq (List.mem_map.2 ⟨r, hr, heq⟩)
      rw [at?_putAll _ fun r hr => ?_]
      · exact at?_put_self _ _ _
      · simp only [List.cons_prefix_cons, not_and]
        exact ⟨fun heq => absurd heq (hapart r hr), fun heq => absurd heq.symm (hapart r hr)⟩
    · exact ih _ hrest hp

/-- Whatever was somewhere before, something is still there. -/
theorem isSome_at?_putAll {j : Json} (hd : (places.map Prod.fst).Nodup)
    (hroom : ∀ p ∈ places, j.HasRoom (p.1 :: p.2.1)) {names : List String}
    (h : (j.at? names).isSome) : ((j.putAll places).at? names).isSome := by
  cases names with
  | nil => rfl
  | cons k names =>
    rw [at?_cons] at h ⊢
    rw [get?_putAll j hd]
    cases hp : Entries.get? places k with
    | none => exact h
    | some p =>
      have hmem := Entries.mem_of_get? hp
      cases hg : j.get? k with
      | none => rw [hg] at h; cases h
      | some w =>
        rw [hg] at h
        exact isSome_at?_put p.2 ((hroom _ hmem).2 w hg) h

end PutAll

end Json

end BuilderControl
