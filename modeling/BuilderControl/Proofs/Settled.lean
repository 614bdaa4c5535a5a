import BuilderControl.Proofs.Merge

/-!
# What a computed patch leads to

A merge patch can not set a member to `null`: it removes the member instead, and an object that is
inserted as a whole loses its own `null` members.  `settled` says what is left of a desired
document when it is reached from an observed one.

## Key results

- `canon_merge_difference`: the patch between two objects leads to the settled one
- `withoutNulls_settled`: settling drops nothing but `null` members
- `at?_settled_null`: `null` survives where it is both observed and desired
- `settled_eq_self`: a document without `null` members of its own is reached exactly
-/

namespace BuilderControl

namespace Json

/-! ## Documents without `null` members -/

mutual
/-- The document without `null` members, as deep as objects reach. -/
def withoutNulls : Json → Json
  | .obj ms => .obj (withoutNullMembers ms)
  | .null => .null
  | .bool b => .bool b
  | .num n => .num n
  | .str s => .str s
  | .arr xs => .arr xs
termination_by structural j => j
def withoutNullMembers : List (String × Json) → Entries String Json
  | [] => []
  | (k, v) :: ms =>
    if v.isNull then withoutNullMembers ms else (k, withoutNulls v) :: withoutNullMembers ms
termination_by structural ms => ms
end

/-- No member is `null`, as deep as objects reach. -/
def NullFree (j : Json) : Prop :=
  ∀ names : List String, names ≠ [] → j.lookup (names.map .field) ≠ .ok .null

mutual
/-- What a desired document becomes when it is reached from what is observed at its place: `null`
members are dropped unless `null` is observed there. -/
def settled (observed : Option Json) : Json → Json
  | .obj desired => .obj (settledMembers (observed.elim [] members) desired)
  | .null => .null
  | .bool b => .bool b
  | .num n => .num n
  | .str s => .str s
  | .arr xs => .arr xs
termination_by structural desired => desired
def settledMembers (observed : Entries String Json) : List (String × Json) → Entries String Json
  | [] => []
  | (k, v) :: desired =>
    if v.isNull ∧ Entries.get? observed k ≠ some .null then settledMembers observed desired
    else (k, settled (Entries.get? observed k) v) :: settledMembers observed desired
termination_by structural desired => desired
end

/-- A member of a settled document. -/
def settledMember (observed desired : Option Json) : Option Json :=
  desired.bind fun v =>
    if v.isNull ∧ observed ≠ some .null then none else some (settled observed v)

/-- A member that is not desired is not there. -/
@[simp] theorem settledMember_none (observed : Option Json) :
    settledMember observed none = none := rfl

/-- A desired `null` is there if it was observed. -/
theorem settledMember_null (observed : Option Json) :
    settledMember observed (some .null) = if observed = some .null then some .null else none := by
  simp [settledMember, isNull, settled]

/-- Any other desired member is there as it settles. -/
theorem settledMember_some (observed : Option Json) {v : Json} (h : v ≠ .null) :
    settledMember observed (some v) = some (settled observed v) := by
  simp [settledMember, isNull_iff, h]

/-- Only `null` settles to `null`. -/
theorem settled_eq_null {observed : Option Json} {v : Json} :
    settled observed v = .null ↔ v = .null := by
  cases v <;> simp [settled]

/-- Settling drops `null` members that were not observed, and settles the others one by one. -/
private theorem settledMembers_eq (observed : Entries String Json) (ms : List (String × Json)) :
    settledMembers observed ms =
      (ms.filter fun e => !(e.2.isNull && decide (Entries.get? observed e.1 ≠ some .null))).map
        fun e => (e.1, settled (Entries.get? observed e.1) e.2) := by
  induction ms with
  | nil => rfl
  | cons m ms ih =>
    obtain ⟨k, v⟩ := m
    simp only [settledMembers]
    split
    · rename_i h; simp [h, ih]
    · rename_i h
      rw [List.filter_cons_of_pos (by cases hv : v.isNull <;> simp_all), List.map_cons, ih]

/-- Settling keeps the key order. -/
theorem sorted_settledMembers (observed : Entries String Json) {ms : Entries String Json}
    (h : Entries.Sorted ms) : Entries.Sorted (settledMembers observed ms) := by
  rw [settledMembers_eq]
  exact (h.sublist List.filter_sublist).map fun k v => settled (Entries.get? observed k) v

/-- A member of settled members is what the member settles to. -/
theorem get?_settledMembers (observed : Entries String Json) {ms : Entries String Json}
    (h : Entries.Sorted ms) (k : String) :
    Entries.get? (settledMembers observed ms) k =
      settledMember (Entries.get? observed k) (Entries.get? ms k) := by
  induction ms with
  | nil => rfl
  | cons m ms ih =>
    obtain ⟨l, v⟩ := m
    simp only [settledMembers, Entries.get?_cons]
    by_cases hk : k = l
    · subst hk
      -- The tail does not have the key, so a dropped member stays dropped
      have hrest : Entries.get? (settledMembers observed ms) k = none := by
        rw [ih h.tail, h.get?_tail]; rfl
      split
      · rename_i hv; simp [settledMember, hv, hrest]
      · rename_i hv; simp [settledMember, hv, Entries.get?_cons]
    · split <;> simp [Entries.get?_cons, hk, ih h.tail]

/-- A member of a settled document is settled with what was observed of it. -/
theorem get?_settled (observed : Option Json) {d : Json} (h : d.WellFormed) (k : String) :
    (settled observed d).get? k = settledMember (observed.bind (·.get? k)) (d.get? k) := by
  cases d with
  | obj ms =>
    refine (get?_settledMembers _ h.sorted k).trans ?_
    cases observed <;> rfl
  | _ => rfl

/-- A well-formed document settles to a well-formed one. -/
theorem WellFormed.settled {d : Json} (h : d.WellFormed) (observed : Option Json) :
    (Json.settled observed d).WellFormed := by
  induction d using byMembers generalizing observed with
  | obj ms ih =>
    refine wellFormed_obj.2 ⟨sorted_settledMembers _ h.sorted, fun k v hg => ?_⟩
    rw [get?_settledMembers _ h.sorted] at hg
    obtain ⟨w, hw, hg⟩ := Option.bind_eq_some_iff.1 hg
    split at hg
    · cases hg
    · cases hg; exact ih k w hw (h.member hw) _
  | _ => exact h

/-! ## Reaching a desired document -/

/-- Onto anything that has no members, a document is merged as it settles with nothing observed. -/
theorem merge_of_members_eq_nil {j v : Json} (hj : j.members = []) (hv : v.WellFormed) :
    merge j v = settled none v := by
  induction v using byMembers generalizing j with
  | obj ms ih =>
    simp only [merge_obj, settled, hj, Option.elim_none, Json.obj.injEq]
    have hnil : Entries.Sorted ([] : Entries String Json) := Entries.sorted_nil
    refine (sorted_mergeMembers hnil).ext (sorted_settledMembers [] hv.sorted) fun k => ?_
    rw [get?_mergeMembers hnil hv.sorted, get?_settledMembers [] hv.sorted]
    cases hm : Entries.get? ms k with
    | none => rfl
    | some w =>
      -- A member that is merged into nothing is one that settles with nothing observed
      have hnull : merge .null w = settled none w := ih k w hm (by rfl) (hv.member hm)
      by_cases hw : w.isNull
      · simp [mergeMember, settledMember, hw]
      · simp [mergeMember, settledMember, hw, hnull]
  | _ => rfl

/-- Two objects reach what they settle to, if their members do. -/
private theorem canon_merge_difference_of_members {present ms : Entries String Json}
    (hp : (Json.obj present).WellFormed) (hm : (Json.obj ms).WellFormed)
    (h : ∀ k v, Entries.get? ms k = some v →
      (mergeMember (Entries.get? present k) (change (Entries.get? present k) v)).map canon =
        (settledMember (Entries.get? present k) (some v)).map canon) :
    (merge (.obj present) (.obj (difference present ms))).canon =
      (settled (some (.obj present)) (.obj ms)).canon := by
  refine (canon_obj_eq (sorted_mergeMembers hp.sorted)
    (sorted_settledMembers _ hm.sorted)).2 fun k => ?_
  rw [get?_mergeMembers hp.sorted (sorted_difference present ms), get?_difference _ hm.sorted,
    get?_settledMembers _ hm.sorted]
  -- A member that is not desired is removed, if it is there
  cases hg : Entries.get? ms k with
  | none => cases Entries.get? present k <;> rfl
  | some v => exact h k v hg

/-- A member to which its change is applied is settled. -/
theorem canon_mergeMember_change {observed : Option Json} {v : Json}
    (ho : ∀ o, observed = some o → o.WellFormed) (hv : v.WellFormed) :
    (mergeMember observed (change observed v)).map canon =
      (settledMember observed (some v)).map canon := by
  induction v using byMembers generalizing observed with
  | null =>
    rw [change_null]
    cases observed with
    | none => rfl
    | some o => cases o <;> rfl
  | obj ms ih =>
    rcases all_not_isObject_or observed with hobj | ⟨present, rfl⟩
    · -- The desired object is inserted as a whole
      rw [change_obj_of_not_isObject hobj, mergeMember_some _ (by simp)]
      have hnil := members_getD_of_not_isObject hobj
      have hsettled : settled observed (.obj ms) = settled none (.obj ms) := by
        cases observed with
        | none => rfl
        | some o => simp only [settled, Option.elim_some, Option.elim_none]; rw [← hnil]; rfl
      rw [merge_of_members_eq_nil hnil hv, ← hsettled]
      rfl
    · have hp := ho _ rfl
      -- Two objects are compared member by member, and nothing is said if nothing changes
      have hmembers := canon_merge_difference_of_members hp hv fun k v hg =>
        ih k v hg (fun o h => hp.member h) (hv.member hg)
      rw [change_obj_obj]
      split
      · rename_i hnil
        rw [hnil] at hmembers
        exact congrArg some hmembers
      · rw [mergeMember_some _ (by simp)]
        exact congrArg some hmembers
  | _ =>
    rw [change_of_not_isObject observed (by rfl) (by simp)]
    split
    · rename_i h; exact h
    · rfl

/-- The patch between two objects leads from the one to the settled other. -/
theorem canon_merge_difference {present desired : Entries String Json}
    (hp : (Json.obj present).WellFormed) (hd : (Json.obj desired).WellFormed) :
    (merge (.obj present) (.obj (difference present desired))).canon =
      (settled (some (.obj present)) (.obj desired)).canon :=
  canon_merge_difference_of_members hp hd fun _ _ hg =>
    canon_mergeMember_change (fun _ h => hp.member h) (hd.member hg)

/-- Nothing is said about a member that is there already. -/
theorem change_eq_none_of_canon_eq {o v : Json} (hv : v.WellFormed) (h : o.canon = v.canon) :
    change (some o) v = none := by
  induction v using byMembers generalizing o with
  | null => rw [canon_eq_null.1 h]; rfl
  | obj ms ih =>
    cases o with
    | obj present =>
      -- Two objects of the same value: nothing is said under any key
      refine change_obj_obj_eq_none_iff.2 ((difference_eq_nil_iff_forall hv.sorted).2 fun k => ?_)
      have hk : (Entries.get? present k).map canon = (Entries.get? ms k).map canon :=
        get?_of_canon_eq h k
      cases hp : Entries.get? present k <;> cases hm : Entries.get? ms k <;> simp [hp, hm] at hk
      · rfl
      · exact ih k _ hm (hv.member hm) hk
    | _ => cases h
  | _ =>
    rw [change_of_not_isObject _ (by rfl) (by simp)]
    simp [h]

/-- Nothing is said about a member that is as it is desired. -/
theorem changeMember_self {v : Option Json} (h : ∀ w, v = some w → w.WellFormed) :
    changeMember v v = none := by
  cases v with
  | none => rfl
  | some w => exact change_eq_none_of_canon_eq (h w rfl) rfl

/-- Between two objects of the same value, there is no patch. -/
theorem difference_eq_nil_of_canon_eq {present desired : Entries String Json}
    (hd : (Json.obj desired).WellFormed) (h : (Json.obj present).canon = (Json.obj desired).canon) :
    difference present desired = [] :=
  change_obj_obj_eq_none_iff.1 (change_eq_none_of_canon_eq hd h)

/-! ## What settling keeps -/

mutual
/-- Without its `null` members, a document is what it settles to with nothing observed. -/
theorem withoutNulls_eq_settled : ∀ j : Json, withoutNulls j = settled none j
  | .obj ms => congrArg Json.obj (withoutNullMembers_eq_settledMembers ms)
  | .null | .bool _ | .num _ | .str _ | .arr _ => rfl
/-- Members without those that are `null` are what they settle to with nothing observed. -/
theorem withoutNullMembers_eq_settledMembers :
    ∀ ms : List (String × Json), withoutNullMembers ms = settledMembers [] ms
  | [] => rfl
  | (k, v) :: ms => by
    simp [withoutNullMembers, settledMembers, withoutNulls_eq_settled v,
      withoutNullMembers_eq_settledMembers ms]
end

/-- A well-formed document is so without its `null` members. -/
theorem WellFormed.withoutNulls {j : Json} (h : j.WellFormed) : j.withoutNulls.WellFormed := by
  rw [withoutNulls_eq_settled]
  exact h.settled none

/-- A member of a document without its `null` members is not `null`, and has none itself. -/
theorem get?_withoutNulls {j : Json} (h : j.WellFormed) (k : String) :
    j.withoutNulls.get? k = (j.get? k).bind fun v =>
      if v.isNull then none else some v.withoutNulls := by
  rw [withoutNulls_eq_settled, get?_settled none h]
  simp [settledMember, withoutNulls_eq_settled]

/-- Settling drops nothing but `null` members. -/
theorem withoutNulls_settled (observed : Option Json) {d : Json} (h : d.WellFormed) :
    (settled observed d).withoutNulls = d.withoutNulls := by
  induction d using byMembers generalizing observed with
  | obj ms ih =>
    refine (h.settled observed).withoutNulls.ext h.withoutNulls rfl rfl fun k => ?_
    rw [get?_withoutNulls (h.settled observed), get?_withoutNulls h, get?_settled observed h]
    cases hm : (Json.obj ms).get? k with
    | none => rfl
    | some v =>
      -- A `null` member is dropped either by settling or afterwards
      by_cases hnull : v = .null
      · subst hnull
        rw [settledMember_null]
        split <;> rfl
      · have hv := ih k v hm (observed.bind (·.get? k)) (h.member hm)
        simp [settledMember_some _ hnull, isNull_iff, settled_eq_null, hnull, hv]
  | _ => rfl

/-- Documents that are the same value stay so without their `null` members. -/
theorem canon_withoutNulls_congr {a b : Json} (ha : a.WellFormed) (hb : b.WellFormed)
    (h : a.canon = b.canon) : a.withoutNulls.canon = b.withoutNulls.canon := by
  induction a using byMembers generalizing b with
  | obj ms ih =>
    obtain ⟨ns, rfl⟩ := isObject_iff.1 (isObject_of_canon_eq h).symm
    refine ha.withoutNulls.canon_eq hb.withoutNulls rfl rfl fun k => ?_
    have hk := get?_of_canon_eq h k
    rw [get?_withoutNulls ha, get?_withoutNulls hb]
    cases hx : (Json.obj ms).get? k <;> cases hy : (Json.obj ns).get? k <;> simp [hx, hy] at hk
    · rfl
    · rename_i x y
      have hv := ih k x hx (ha.member hx) (hb.member hy) hk
      -- The same member is dropped on both sides, or on neither
      have hnull : x.isNull = y.isNull := by rw [← isNull_canon, hk, isNull_canon]
      simp only [Option.bind_some, hnull]
      split
      · rfl
      · exact congrArg some hv
  | _ => cases b <;> first | exact h | cases h

/-- What a settled document has at a place is settled there. -/
theorem at?_settled {observed : Option Json} {d x : Json} (h : d.WellFormed)
    {names : List String} (hx : (settled observed d).at? names = some x) :
    ∃ y, d.at? names = some y ∧ x = settled (observed.bind (·.at? names)) y := by
  induction names generalizing observed d with
  | nil => cases hx; exact ⟨d, rfl, by cases observed <;> rfl⟩
  | cons k names ih =>
    rw [at?_cons, get?_settled observed h] at hx
    obtain ⟨s, hs, hx⟩ := Option.bind_eq_some_iff.1 hx
    cases hd : d.get? k with
    | none => rw [hd] at hs; cases hs
    | some v =>
      -- A member that is left is settled with what was observed of it
      have hsettled : s = settled (observed.bind (·.get? k)) v := by
        by_cases hnull : v = .null
        · subst hnull
          rw [hd, settledMember_null] at hs
          split at hs <;> cases hs
          rfl
        · rw [hd, settledMember_some _ hnull] at hs
          cases hs; rfl
      subst hsettled
      obtain ⟨y, hy, rfl⟩ := ih (h.get? hd) hx
      refine ⟨y, by rw [at?_cons, hd]; exact hy, ?_⟩
      cases observed <;> rfl

/-- `null` members that survive are those that are both observed and desired. -/
theorem at?_settled_null {observed : Option Json} {d : Json} (h : d.WellFormed)
    {names : List String} (hn : names ≠ []) :
    (settled observed d).at? names = some .null ↔
      observed.bind (·.at? names) = some .null ∧ d.at? names = some .null := by
  induction names generalizing observed d with
  | nil => exact absurd rfl hn
  | cons k names ih =>
    have hbind : observed.bind (·.at? (k :: names)) =
        (observed.bind (·.get? k)).bind (·.at? names) := by cases observed <;> rfl
    rw [hbind, at?_cons, at?_cons, get?_settled observed h]
    cases hd : d.get? k with
    | none => simp
    | some v =>
      -- The place ends at a `null` member, or goes on below another one
      by_cases hnull : v = .null
      · subst hnull
        rw [settledMember_null]
        -- There is nothing below `null`, settled or not
        cases names with
        | nil => split <;> simp_all
        | cons k' names => split <;> simp [Json.get?, members]
      · rw [settledMember_some _ hnull]
        cases names with
        | nil => simp [settled_eq_null, hnull]
        | cons k' names => exact ih (h.get? hd) (by simp)

/-- A document all of whose `null` members are observed as such is reached exactly. -/
theorem settled_eq_self {observed : Option Json} {d : Json} (h : d.WellFormed)
    (hn : ∀ names, names ≠ [] → d.at? names = some .null →
      observed.bind (·.at? names) = some .null) : settled observed d = d := by
  induction d using byMembers generalizing observed with
  | obj ms ih =>
    refine (h.settled observed).ext h rfl rfl fun k => ?_
    rw [get?_settled observed h]
    cases hm : (Json.obj ms).get? k with
    | none => rfl
    | some v =>
      by_cases hnull : v = .null
      · subst hnull
        -- A `null` that was observed as well is left
        have hk := hn [k] (by simp) (by rw [at?_cons, hm]; rfl)
        rw [settledMember_null, if_pos]
        cases observed with
        | none => cases hk
        | some o => simpa [at?] using hk
      · rw [settledMember_some _ hnull, ih k v hm (h.member hm)]
        intro names hne hnull
        have hk := hn (k :: names) (by simp) (by rw [at?_cons, hm]; exact hnull)
        cases observed with
        | none => cases hk
        | some o => exact hk
  | _ => rfl

/-- Fields never lead to `null` where there are no `null` members. -/
theorem NullFree.at? {j : Json} (h : j.NullFree) {names : List String} (hn : names ≠ []) :
    j.at? names ≠ some .null :=
  fun hnull => h names hn (lookup_fields.2 hnull)

/-- A document without `null` members settles to itself, whatever is observed. -/
theorem NullFree.settled {d : Json} (hf : d.NullFree) (h : d.WellFormed)
    (observed : Option Json) : Json.settled observed d = d :=
  settled_eq_self h fun _ hne hnull => absurd hnull (hf.at? hne)

/-- No member is `null` if nothing is lost by dropping those that are. -/
theorem nullFree_iff {j : Json} (h : j.WellFormed) : j.NullFree ↔ j.withoutNulls = j := by
  rw [withoutNulls_eq_settled]
  refine ⟨fun hf => hf.settled h none, fun heq names hn hnull => ?_⟩
  rw [lookup_fields, ← heq, at?_settled_null h hn] at hnull
  cases hnull.1

/-! ## The patch between two objects -/

section Difference

variable {observed desired : Entries String Json} (ho : (Json.obj observed).WellFormed)
  (hd : (Json.obj desired).WellFormed)
include ho hd

/-- But for `null` members, the patch between two objects reaches the desired one. -/
theorem canon_withoutNulls_merge_difference :
    (merge (.obj observed) (.obj (difference observed desired))).withoutNulls.canon =
      (Json.obj desired).withoutNulls.canon := by
  rw [← withoutNulls_settled (some (.obj observed)) hd]
  exact canon_withoutNulls_congr (ho.merge hd.difference) (hd.settled _)
    (canon_merge_difference ho hd)

/-- What the patch between two objects leaves at a place is what the desired one settles to there.
-/
theorem map_canon_at?_merge_difference (names : List String) :
    ((merge (.obj observed) (.obj (difference observed desired))).at? names).map canon =
      ((settled (some (.obj observed)) (.obj desired)).at? names).map canon := by
  rw [← at?_canon, ← at?_canon, canon_merge_difference ho hd]

/-- Where objects stand, every member left by the patch is a desired one. -/
theorem contains_of_merge_difference {names : List String} {rs ds : Entries String Json}
    (hr : (merge (.obj observed) (.obj (difference observed desired))).at? names = some (.obj rs))
    (hds : (Json.obj desired).at? names = some (.obj ds)) {k : String}
    (hk : Entries.contains rs k = true) : Entries.contains ds k = true := by
  have hat := map_canon_at?_merge_difference ho hd names
  rw [hr] at hat
  obtain ⟨x, hx, hcanon⟩ := Option.map_eq_some_iff.1 hat.symm
  -- What stands there now is what the desired object settles to
  obtain ⟨y, hy, rfl⟩ := at?_settled hd hx
  rw [hds] at hy
  cases hy
  have hdsw : (Json.obj ds).WellFormed := hd.at? hds
  obtain ⟨v, hv⟩ := Entries.contains_iff.1 hk
  have hget := get?_of_canon_eq hcanon k
  rw [get?_settled _ hdsw, get?_obj, get?_obj, hv] at hget
  cases hg : Entries.get? ds k with
  | none => rw [hg] at hget; cases hget
  | some w => exact Entries.contains_iff.2 ⟨w, hg⟩

/-- A `null` member is left where it is both observed and desired. -/
theorem at?_merge_difference_null {names : List String} (hn : names ≠ []) :
    (merge (.obj observed) (.obj (difference observed desired))).at? names = some .null ↔
      (Json.obj observed).at? names = some .null ∧ (Json.obj desired).at? names = some .null := by
  have hnull : ∀ j : Json, j.at? names = some .null ↔ (j.at? names).map canon = some .null := by
    intro j
    cases j.at? names <;> simp
  rw [hnull, map_canon_at?_merge_difference ho hd names, ← hnull]
  exact at?_settled_null hd hn

/-- A document without `null` members is reached as it is. -/
theorem NullFree.canon_merge_difference (hf : (Json.obj desired).NullFree) :
    (merge (.obj observed) (.obj (difference observed desired))).canon =
      (Json.obj desired).canon := by
  rw [Json.canon_merge_difference ho hd, hf.settled hd]

/-- Without `null` members, there is no patch only between objects of the same value. -/
theorem NullFree.difference_eq_nil_iff (hf : (Json.obj desired).NullFree) :
    difference observed desired = [] ↔ (Json.obj observed).canon = (Json.obj desired).canon := by
  refine ⟨fun h => ?_, difference_eq_nil_of_canon_eq hd⟩
  have hcanon := NullFree.canon_merge_difference ho hd hf
  rw [h] at hcanon
  exact hcanon

end Difference

end Json

end BuilderControl
