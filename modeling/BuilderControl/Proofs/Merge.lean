import BuilderControl.Patch
import BuilderControl.Proofs.Document

/-!
# Merging and comparing, member by member

A merge patch acts on each member on its own, and so does the comparison that computes one.  What
a computed patch leads to is therefore settled member by member: the desired value is reached up
to `null` members, of which only those survive that were `null` on both sides.

## Key results

- `get?_merge`: what a patch makes of one member
- `get?_difference`: what a computed patch says about one member
- `change_eq_some`: a patch says the desired value as it is, or compares two objects
- `WellFormed.merge`, `WellFormed.difference`: key order is kept
-/

namespace BuilderControl

namespace Json

/-! ## Merging -/

/-- A member after a patch, by the member before it and the patch's own member. -/
def mergeMember (old : Option Json) : Option Json → Option Json
  | none => old
  | some v => if v.isNull then none else some (merge (old.getD .null) v)

/-- A member that the patch does not have stays. -/
@[simp] theorem mergeMember_none (old : Option Json) : mergeMember old none = old := rfl

/-- A member of the patch is merged into the member of the target, or into nothing. -/
theorem mergeMember_some (old : Option Json) {v : Json} (h : v ≠ .null) :
    mergeMember old (some v) = some (merge (old.getD .null) v) := by
  simp [mergeMember, isNull_iff, h]

/-- A patch that is no object replaces its target. -/
theorem merge_of_not_isObject (j : Json) {v : Json} (h : v.isObject = false) : merge j v = v := by
  cases v <;> first | rfl | cases h

/-- A patch that is an object makes an object, of whatever members its target has. -/
@[simp] theorem merge_obj (j : Json) (ms : Entries String Json) :
    merge j (.obj ms) = .obj (mergeMembers j.members ms) := rfl

/-- A patch acts only on the members of its target. -/
theorem merge_congr {i j : Json} (h : i.members = j.members) (v : Json) :
    merge i v = merge j v := by
  cases v <;> simp [merge, h]

/-- Merging keeps the key order of the target. -/
theorem sorted_mergeMembers {target changes : Entries String Json} (ht : Entries.Sorted target) :
    Entries.Sorted (mergeMembers target changes) := by
  induction changes generalizing target with
  | nil => exact ht
  | cons c changes ih =>
    simp only [mergeMembers]
    refine ih ?_
    split
    · exact ht.erase c.1
    · exact ht.insert c.1 _

/-- What stands under a key after merging follows from what the target and the patch have there. -/
theorem get?_mergeMembers {target changes : Entries String Json} (ht : Entries.Sorted target)
    (hc : Entries.Sorted changes) (k : String) :
    Entries.get? (mergeMembers target changes) k =
      mergeMember (Entries.get? target k) (Entries.get? changes k) := by
  induction changes generalizing target with
  | nil => rfl
  | cons c changes ih =>
    obtain ⟨l, v⟩ := c
    -- The first change decides about its own key, and the others about all other keys
    have hnext : ∀ next : Entries String Json, Entries.Sorted next →
        Entries.get? next k = (if k = l then mergeMember (Entries.get? target k) (some v)
          else Entries.get? target k) →
        Entries.get? (mergeMembers next changes) k =
          mergeMember (Entries.get? target k) (Entries.get? ((l, v) :: changes) k) := by
      intro next hs hget
      rw [ih hs hc.tail, hget, Entries.get?_cons]
      by_cases hk : k = l
      · -- The key does not occur among the later changes
        subst hk
        simp [hc.get?_tail]
      · simp [hk]
    simp only [mergeMembers]
    split
    · rename_i hv
      refine hnext _ (ht.erase l) ?_
      rw [ht.get?_erase]
      simp [mergeMember, hv]
    · rename_i hv
      refine hnext _ (ht.insert l _) ?_
      rw [Entries.get?_insert]
      by_cases hk : k = l
      · subst hk; simp [mergeMember, hv]
      · simp [hk]

/-- What a patch makes of one member. -/
theorem get?_merge {j : Json} {changes : Entries String Json} (hj : j.WellFormed)
    (hc : Entries.Sorted changes) (k : String) :
    (j.merge (.obj changes)).get? k = mergeMember (j.get? k) (Entries.get? changes k) :=
  get?_mergeMembers hj.members_sorted hc k

/-- A well-formed patch keeps its target well-formed. -/
theorem WellFormed.merge {j v : Json} (hj : j.WellFormed) (hv : v.WellFormed) :
    (j.merge v).WellFormed := by
  induction v using byMembers generalizing j with
  | obj ms ih =>
    refine wellFormed_obj.2 ⟨sorted_mergeMembers hj.members_sorted, fun k w hg => ?_⟩
    rw [get?_mergeMembers hj.members_sorted hv.sorted] at hg
    cases hm : Entries.get? ms k with
    | none => rw [hm] at hg; exact hj.get? hg
    | some u =>
      rw [hm] at hg
      simp only [mergeMember] at hg
      split at hg
      · cases hg
      · cases hg
        refine ih k u hm ?_ (hv.member hm)
        cases ho : Entries.get? j.members k with
        | none => trivial
        | some old => exact hj.get? ho
  | _ => exact hv

/-! ## Comparing -/

/-- What a patch says about a member, by the observed and the desired one. -/
def changeMember (observed : Option Json) : Option Json → Option Json
  | some v => change observed v
  | none => observed.map fun _ => .null

/-- What a patch says about a member that is desired. -/
@[simp] theorem changeMember_some (observed : Option Json) (v : Json) :
    changeMember observed (some v) = change observed v := rfl

/-- A desired `null` is said unless nothing or `null` is observed. -/
theorem change_null (observed : Option Json) :
    change observed .null = if observed.getD .null = .null then none else some .null := by
  cases observed with
  | none => rfl
  | some o => cases o <;> simp [change]

/-- Where nothing is observed, all is said but `null`. -/
theorem change_none {v : Json} (h : v ≠ .null) : change none v = some v := by
  cases v <;> first | rfl | exact absurd rfl h

/-- Two objects are compared, and nothing is said if there is nothing to say about their members. -/
theorem change_obj_obj (present desired : Entries String Json) :
    change (some (.obj present)) (.obj desired) =
      if difference present desired = [] then none else some (.obj (difference present desired)) := by
  simp only [change]
  split
  · rename_i hnil
    exact (if_pos hnil).symm
  · rename_i hne
    exact (if_neg hne).symm

/-- Nothing is said about two objects if the patch between them is empty. -/
theorem change_obj_obj_eq_none_iff {os ds : Entries String Json} :
    change (some (.obj os)) (.obj ds) = none ↔ difference os ds = [] := by
  rw [change_obj_obj]
  split <;> simp [*]

/-- Where no object stands, a desired object is taken as a whole. -/
theorem change_obj_of_not_isObject {observed : Option Json} (h : observed.all (!·.isObject))
    (desired : Entries String Json) : change observed (.obj desired) = some (.obj desired) := by
  cases observed with
  | none => rfl
  | some o => cases o <;> first | rfl | cases h

/-- A desired value that is neither an object nor `null` is taken unless it is there already. -/
theorem change_of_not_isObject (observed : Option Json) {v : Json} (ho : v.isObject = false)
    (hn : v ≠ .null) :
    change observed v = if observed.map canon = some v.canon then none else some v := by
  have hu : unlessSame observed v = if observed.map canon = some v.canon then none else some v := by
    cases observed with
    | none => rfl
    | some o => simp [unlessSame, same_iff]
  cases v with
  | null => exact absurd rfl hn
  | obj ms => cases ho
  | _ => exact hu

/-- No object is observed, or one is. -/
theorem all_not_isObject_or (observed : Option Json) :
    observed.all (!·.isObject) = true ∨ ∃ present, observed = some (.obj present) := by
  cases observed with
  | none => exact Or.inl rfl
  | some o => cases o <;> simp [isObject]

/-- Where no object is observed, there are no members. -/
theorem members_getD_of_not_isObject {observed : Option Json}
    (h : observed.all (!·.isObject) = true) : (observed.getD .null).members = [] := by
  cases observed with
  | none => rfl
  | some o => exact members_of_not_isObject (by simpa using h)

/-- A patch says the desired value as it is, or compares two objects. -/
theorem change_eq_some {observed : Option Json} {v p : Json} (h : change observed v = some p) :
    p = v ∨ ∃ present desired, observed = some (.obj present) ∧ v = .obj desired ∧
      p = .obj (difference present desired) := by
  cases v with
  | null =>
    rw [change_null] at h
    split at h <;> cases h
    exact Or.inl rfl
  | obj desired =>
    rcases all_not_isObject_or observed with ho | ⟨present, rfl⟩
    · rw [change_obj_of_not_isObject ho] at h
      cases h
      exact Or.inl rfl
    · rw [change_obj_obj] at h
      split at h <;> cases h
      exact Or.inr ⟨present, desired, rfl, rfl, rfl⟩
  | _ =>
    rw [change_of_not_isObject observed (by rfl) (by simp)] at h
    split at h <;> cases h
    exact Or.inl rfl

/-- Where no object is desired, nothing is said or all of it. -/
theorem change_eq_none_or_self (observed : Option Json) {v : Json} (h : v.isObject = false) :
    change observed v = none ∨ change observed v = some v := by
  cases hc : change observed v with
  | none => exact Or.inl rfl
  | some p =>
    rcases change_eq_some hc with rfl | ⟨_, _, _, rfl, _⟩
    · exact Or.inr rfl
    · cases h

/-- The patch removes the observed members that are not desired. -/
theorem get?_removals (observed desired : Entries String Json) (k : String) :
    Entries.get? (removals observed desired) k =
      if (Entries.get? desired k).isNone then (Entries.get? observed k).map fun _ => .null
      else none := by
  have h := Entries.get?_map (fun _ _ => Json.null)
    (observed.filter fun e => !Entries.contains desired e.1) k
  rw [Entries.get?_filter (fun k => !Entries.contains desired k)] at h
  rw [removals]
  refine h.trans ?_
  cases hg : Entries.get? desired k <;> simp [Entries.contains, hg]

/-- Changes of desired members are in key order. -/
theorem sorted_changesOfMembers (observed : Entries String Json)
    (desired : List (String × Json)) : Entries.Sorted (changesOfMembers observed desired) := by
  induction desired with
  | nil => exact Entries.sorted_nil
  | cons d desired ih =>
    simp only [changesOfMembers]
    split
    · exact ih.insert d.1 _
    · exact ih

/-- Changes of desired members are found under their keys, and no others. -/
theorem get?_changesOfMembers (observed : Entries String Json) {desired : Entries String Json}
    (hd : Entries.Sorted desired) (k : String) :
    Entries.get? (changesOfMembers observed desired) k =
      (Entries.get? desired k).bind (change (Entries.get? observed k)) := by
  induction desired with
  | nil => rfl
  | cons d desired ih =>
    obtain ⟨l, v⟩ := d
    simp only [changesOfMembers, Entries.get?_cons]
    by_cases hk : k = l
    · subst hk
      -- No later member has this key
      have hrest : Entries.get? (changesOfMembers observed desired) k = none := by
        rw [ih hd.tail, hd.get?_tail]; rfl
      split <;> simp_all
    · split <;> simp [hk, ih hd.tail]

/-- The patch between two objects is in key order. -/
theorem sorted_difference (observed desired : Entries String Json) :
    Entries.Sorted (difference observed desired) :=
  (sorted_changesOfMembers observed desired).union

/-- What a computed patch says about one member. -/
theorem get?_difference (observed : Entries String Json) {desired : Entries String Json}
    (hd : Entries.Sorted desired) (k : String) :
    Entries.get? (difference observed desired) k =
      changeMember (Entries.get? observed k) (Entries.get? desired k) := by
  rw [difference, Entries.get?_union, get?_removals, get?_changesOfMembers observed hd]
  cases Entries.get? desired k with
  | none => cases Entries.get? observed k <;> rfl
  | some v => rfl

/-- The patch between two objects is empty if nothing is said under any key. -/
theorem difference_eq_nil_iff_forall {observed desired : Entries String Json}
    (hd : Entries.Sorted desired) :
    difference observed desired = [] ↔
      ∀ k, changeMember (Entries.get? observed k) (Entries.get? desired k) = none := by
  constructor
  · intro h k
    rw [← get?_difference observed hd, h, Entries.get?_nil]
  · intro h
    refine (sorted_difference observed desired).ext Entries.sorted_nil fun k => ?_
    rw [get?_difference observed hd, h, Entries.get?_nil]

/-- What is said about a well-formed value is well-formed. -/
theorem WellFormed.change {observed : Option Json} {v p : Json} (hv : v.WellFormed)
    (hp : change observed v = some p) : p.WellFormed := by
  induction v using byMembers generalizing observed p with
  | obj ms ih =>
    rcases change_eq_some hp with rfl | ⟨present, desired, rfl, hms, rfl⟩
    · exact hv
    · cases hms
      refine wellFormed_obj.2 ⟨sorted_difference present ms, fun k w hg => ?_⟩
      -- A member is removed, or said by the induction hypothesis
      rw [get?_difference present hv.sorted] at hg
      cases hm : Entries.get? ms k with
      | none =>
        rw [hm] at hg
        obtain ⟨_, _, rfl⟩ := Option.map_eq_some_iff.1 hg
        trivial
      | some u => rw [hm] at hg; exact ih k u hm (hv.member hm) hg
  | _ =>
    rcases change_eq_some hp with rfl | ⟨_, _, _, hms, _⟩
    · exact hv
    · cases hms

/-- The patch to a well-formed object is well-formed. -/
theorem WellFormed.difference {observed desired : Entries String Json}
    (hd : (Json.obj desired).WellFormed) :
    (Json.obj (Json.difference observed desired)).WellFormed := by
  refine wellFormed_obj.2 ⟨sorted_difference observed desired, fun k w hg => ?_⟩
  rw [get?_difference observed hd.sorted] at hg
  cases hm : Entries.get? desired k with
  | none =>
    rw [hm] at hg
    obtain ⟨_, _, rfl⟩ := Option.map_eq_some_iff.1 hg
    trivial
  | some u => rw [hm] at hg; exact (hd.member hm).change hg

end Json

/-- An empty patch leaves an object as it is. -/
theorem MergePatch.apply_of_isEmpty {p : MergePatch} (h : p.isEmpty = true) {j : Json}
    (hj : j.isObject = true) : p.apply j = j := by
  obtain ⟨ms, rfl⟩ := Json.isObject_iff.1 hj
  obtain ⟨changes⟩ := p
  rw [show changes = [] from List.isEmpty_iff.1 h]
  rfl

end BuilderControl
