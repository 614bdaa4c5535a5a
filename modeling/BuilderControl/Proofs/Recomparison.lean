import BuilderControl.Proofs.Comparison

/-!
# Comparing again

A patch that was applied leaves nothing to say.  What it leads to still lacks the `null` members
that a merge can not make, but a comparison asks for these only where something else stands.

## Key results

- `changeMember_eq_none_of_settled`: nothing is said about what is settled already
- `change_eq_none_iff`: a comparison is silent where only `null` members are missing
- `diff_apply_diff`: comparing again after the patch finds nothing
-/

namespace BuilderControl

namespace Json

/-! ## After the patch -/

/-- Nothing is said about a member that is what the desired one settles to, whatever was observed
before. -/
theorem changeMember_eq_none_of_settled {before now desired : Option Json}
    (hd : ∀ d, desired = some d → d.WellFormed)
    (h : now.map canon = (settledMember before desired).map canon) :
    changeMember now desired = none := by
  cases desired with
  | none =>
    rw [settledMember_none, Option.map_none, Option.map_eq_none_iff] at h
    subst h
    rfl
  | some d =>
    replace hd := hd d rfl
    rw [changeMember_some]
    -- On the desired value: members settle one by one, and so they are compared
    induction d using byMembers generalizing before now with
    | null =>
      -- `null` is settled to itself or to nothing, and either is taken for it
      rw [change_null, if_pos]
      rw [settledMember_null] at h
      cases now with
      | none => rfl
      | some x =>
        split at h
        · exact canon_eq_null.1 (Option.some.inj h)
        · cases h
    | obj ms ih =>
      rw [settledMember_some _ (by simp)] at h
      obtain ⟨x, rfl, hx⟩ := Option.map_eq_some_iff.1 h
      obtain ⟨xs, rfl⟩ := isObject_iff.1 (isObject_of_canon_eq hx)
      refine change_obj_obj_eq_none_iff.2 ((difference_eq_nil_iff_forall hd.sorted).2 fun k => ?_)
      have hk := get?_of_canon_eq hx k
      rw [get?_settled before hd, get?_obj, get?_obj] at hk
      cases hm : Entries.get? ms k with
      | none =>
        rw [hm, settledMember_none, Option.map_none, Option.map_eq_none_iff] at hk
        rw [hk]
        rfl
      | some v =>
        rw [hm] at hk
        exact ih k v hm hk (hd.member hm)
    | _ =>
      rw [settledMember_some _ (by simp)] at h
      rw [change_of_not_isObject _ (by rfl) (by simp), if_pos]
      exact h

/-- Nothing is said between an object and what it settled from. -/
theorem difference_eq_nil_of_settled {before now desired : Entries String Json}
    (hd : (Json.obj desired).WellFormed)
    (h : (Json.obj now).canon = (settled (some (.obj before)) (.obj desired)).canon) :
    difference now desired = [] := by
  -- The objects are compared as members of one key would be
  have hmember : (some (Json.obj now)).map canon =
      (settledMember (some (.obj before)) (some (.obj desired))).map canon := by
    rw [settledMember_some _ (by simp)]
    exact congrArg some h
  have hsilent := changeMember_eq_none_of_settled (by rintro _ ⟨⟩; exact hd) hmember
  exact change_obj_obj_eq_none_iff.1 hsilent

/-! ## When nothing is said -/

/-- Equal values, or two objects. -/
def Alike (v w : Json) : Prop := v.same w = true ∨ v.isObject = true ∧ w.isObject = true

/-- Wherever two objects stand, every observed member is desired, as an equal value or as an object
in the place of another, and only `null` is desired besides. -/
def LacksOnlyNulls (observed desired : Json) : Prop :=
  ∀ (names : List String) (os ds : Entries String Json),
    observed.lookup (names.map .field) = .ok (.obj os) →
    desired.lookup (names.map .field) = .ok (.obj ds) →
    (∀ k v, Entries.get? os k = some v → ∃ w, Entries.get? ds k = some w ∧ Alike v w) ∧
      ∀ k w, Entries.get? ds k = some w → Entries.get? os k = none → w = .null

/-- Where two objects do not stand, there is nothing to lack. -/
theorem lacksOnlyNulls_of_isObject_eq_false {o d : Json}
    (h : o.isObject = false ∨ d.isObject = false) : LacksOnlyNulls o d := by
  have hnot : ∀ {j : Json}, j.isObject = false → ∀ (names : List String) (ms),
      j.lookup (names.map .field) ≠ .ok (.obj ms) := by
    intro j hj names ms hlook
    rw [lookup_fields] at hlook
    cases names with
    | nil => cases hlook; cases hj
    | cons k names => rw [at?_cons, Json.get?, members_of_not_isObject hj] at hlook; cases hlook
  intro names os ds ho hd
  rcases h with h | h
  · exact absurd ho (hnot h names os)
  · exact absurd hd (hnot h names ds)

/-- One level at a time. -/
theorem lacksOnlyNulls_obj {os ds : Entries String Json} :
    LacksOnlyNulls (.obj os) (.obj ds) ↔
      (∀ k v, Entries.get? os k = some v → ∃ w, Entries.get? ds k = some w ∧ Alike v w) ∧
      (∀ k w, Entries.get? ds k = some w → Entries.get? os k = none → w = .null) ∧
      ∀ k v w, Entries.get? os k = some v → Entries.get? ds k = some w → LacksOnlyNulls v w := by
  simp only [LacksOnlyNulls, lookup_fields]
  constructor
  · intro h
    obtain ⟨hthere, hmissing⟩ := h [] os ds rfl rfl
    refine ⟨hthere, hmissing, fun k v w hv hw names os' ds' ho hd => h (k :: names) os' ds' ?_ ?_⟩
    · rw [at?_cons, get?_obj, hv]; exact ho
    · rw [at?_cons, get?_obj, hw]; exact hd
  · -- A place is here, or below a member that both sides have
    rintro ⟨hthere, hmissing, hbelow⟩ names os' ds' ho hd
    cases names with
    | nil => cases ho; cases hd; exact ⟨hthere, hmissing⟩
    | cons k names =>
      obtain ⟨v, hv, ho⟩ := Option.bind_eq_some_iff.1 ho
      obtain ⟨w, hw, hd⟩ := Option.bind_eq_some_iff.1 hd
      exact hbelow k v w hv hw names os' ds' ho hd

/-- Anything but an object is alike to equal values only. -/
theorem alike_and_lacksOnlyNulls_of_isObject_eq_false {o d : Json} (h : d.isObject = false) :
    Alike o d ∧ LacksOnlyNulls o d ↔ o.canon = d.canon := by
  simp [Alike, h, same_iff, lacksOnlyNulls_of_isObject_eq_false (Or.inr h)]

/-- Nothing is said between two objects if nothing is said about any of their members. -/
private theorem difference_eq_nil_iff_of_members {os ms : Entries String Json}
    (hs : Entries.Sorted ms)
    (ih : ∀ k w, Entries.get? ms k = some w → ∀ v : Json,
      change (some v) w = none ↔ Alike v w ∧ LacksOnlyNulls v w) :
    difference os ms = [] ↔ LacksOnlyNulls (.obj os) (.obj ms) := by
  rw [difference_eq_nil_iff_forall hs, lacksOnlyNulls_obj]
  constructor
  · intro h
    refine ⟨fun k v hv => ?_, fun k w hw hnone => ?_, fun k v w hv hw => ?_⟩
    · -- An observed member would be removed if it were not desired
      have hk := h k
      rw [hv] at hk
      cases hw : Entries.get? ms k with
      | none => rw [hw] at hk; cases hk
      | some w =>
        rw [hw] at hk
        exact ⟨w, rfl, ((ih k w hw v).1 hk).1⟩
    · have hk := h k
      rw [hw, hnone, changeMember_some] at hk
      by_cases hnull : w = .null
      · exact hnull
      · rw [change_none hnull] at hk
        cases hk
    · have hk := h k
      rw [hv, hw] at hk
      exact ((ih k w hw v).1 hk).2
  · rintro ⟨hthere, hmissing, hbelow⟩ k
    cases hv : Entries.get? os k with
    | none =>
      -- What is missing is `null`, or not desired either
      cases hw : Entries.get? ms k with
      | none => rfl
      | some w => rw [hmissing k w hw hv]; rfl
    | some v =>
      obtain ⟨w, hw, hvw⟩ := hthere k v hv
      rw [hw]
      exact (ih k w hw v).2 ⟨hvw, hbelow k v w hv hw⟩

/-- Only another object is alike to an object. -/
private theorem not_alike_obj {o : Json} (ho : o.isObject = false) (ms : Entries String Json) :
    ¬Alike o (.obj ms) := by
  rintro (hsame | ⟨hobj, -⟩)
  · rw [isObject_of_canon_eq (same_iff.1 hsame)] at ho
    cases ho
  · rw [ho] at hobj
    cases hobj

/-- Nothing is said about a value that is alike and lacks only `null` members. -/
theorem change_eq_none_iff {o d : Json} (hd : d.WellFormed) :
    change (some o) d = none ↔ Alike o d ∧ LacksOnlyNulls o d := by
  -- On the desired value, as the observed one is only compared with it
  induction d using byMembers generalizing o with
  | null =>
    rw [alike_and_lacksOnlyNulls_of_isObject_eq_false rfl, change_null]
    show _ ↔ o.canon = .null
    simp [canon_eq_null]
  | obj ms ih =>
    rcases all_not_isObject_or (some o) with ho | ⟨os, hos⟩
    · -- The desired object is taken as a whole
      rw [change_obj_of_not_isObject ho]
      have halike := not_alike_obj (o := o) (by simpa using ho) ms
      constructor
      · intro h
        cases h
      · intro h
        exact absurd h.1 halike
    · cases hos
      rw [change_obj_obj_eq_none_iff,
        difference_eq_nil_iff_of_members hd.sorted fun k w hw v => ih k w hw (hd.member hw)]
      exact (and_iff_right (Or.inr ⟨rfl, rfl⟩)).symm
  | _ =>
    rw [alike_and_lacksOnlyNulls_of_isObject_eq_false rfl,
      change_of_not_isObject _ (by rfl) (by simp)]
    simp

/-- Nothing is said between two objects of which one lacks only `null` members. -/
theorem difference_eq_nil_iff_lacksOnlyNulls {os ds : Entries String Json}
    (hd : (Json.obj ds).WellFormed) :
    difference os ds = [] ↔ LacksOnlyNulls (.obj os) (.obj ds) := by
  rw [← change_obj_obj_eq_none_iff, change_eq_none_iff hd]
  exact and_iff_right (Or.inr ⟨rfl, rfl⟩)

end Json

namespace Differ

open Json

/-- One patch is enough: comparing again after it was applied finds nothing, and a patch that says
nothing does nothing.  It says nothing exactly if only `null` members are missing, once the places
that are left out are taken out.  The standard comparison is one of these
(`standard_eq_ofFields`). -/
theorem diff_apply_diff {places : List (List String)} {observed desired : Json}
    (hp : ∀ names ∈ places, names ≠ []) (ho : observed.WellFormed) (hd : desired.WellFormed)
    (hoo : observed.isObject = true) (hdo : desired.isObject = true) :
    let differ := ofFields places
    let patch := differ.diff observed desired
    let again := differ.diff (patch.apply observed) desired
    again.isEmpty = true ∧ again.body = "" ∧
      (patch.isEmpty = true → patch.apply observed = observed) ∧
      (patch.isEmpty = true ↔ LacksOnlyNulls (differ.strip observed) (differ.strip desired)) := by
  intro differ patch again
  obtain ⟨os, hos⟩ := isObject_iff.1 ((isObject_strip places ho).trans hoo)
  obtain ⟨ds, hds⟩ := isObject_iff.1 ((isObject_strip places hd).trans hdo)
  have how : (Json.obj os).WellFormed := hos ▸ wellFormed_strip places ho
  have hdw : (Json.obj ds).WellFormed := hds ▸ wellFormed_strip places hd
  have hpatch : patch = ⟨difference os ds⟩ := diff_of_strip hos hds
  -- The patch is silent about the places that are left out, so these can be taken out first
  have hstrip : differ.strip (patch.apply observed) =
      .obj (mergeMembers os (difference os ds)) := by
    have hcomm := strip_merge places ho (wellFormed_diff places ho hd hoo hdo) fun names hm =>
      ⟨hp names hm, at?_diff places ho hd hoo hdo hm (hp names hm)⟩
    refine hcomm.trans ?_
    rw [hos, diff_of_strip hos hds]
    rfl
  have hagain : again.isEmpty = true := by
    rw [show again = ⟨difference (mergeMembers os (difference os ds)) ds⟩ from
      diff_of_strip hstrip hds]
    exact List.isEmpty_iff.2 (difference_eq_nil_of_settled hdw (canon_merge_difference how hdw))
  refine ⟨hagain, if_pos hagain, fun h => MergePatch.apply_of_isEmpty h hoo, ?_⟩
  rw [hpatch, show differ.strip observed = _ from hos, show differ.strip desired = _ from hds,
    ← difference_eq_nil_iff_lacksOnlyNulls hdw]
  exact List.isEmpty_iff

/-- Places on two levels are left out, and the desired document has `null` members that are there,
that are missing, and that stand for something else. -/
theorem diff_apply_diff_nulls :
    let differ := ofFields [["status"], ["spec", "stack", "uid"]]
    let observed : Json := .obj
      [("a", .null), ("b", .num (.int 1)),
        ("spec", .obj [("stack", .obj [("name", .str "base"), ("uid", .str "0f6c")])]),
        ("status", .obj [])]
    let desired : Json := .obj
      [("a", .null), ("b", .null), ("c", .null),
        ("spec", .obj [("stack", .obj [("name", .str "tiny"), ("tag", .obj [("x", .null)]),
          ("uid", .null)])])]
    let patch := differ.diff observed desired
    let again := differ.diff (patch.apply observed) desired
    (∀ names ∈ [["status"], ["spec", "stack", "uid"]], names ≠ []) ∧ observed.WellFormed ∧
      desired.WellFormed ∧ observed.isObject = true ∧ desired.isObject = true ∧
      again.isEmpty = true ∧ again.body = "" ∧
      (patch.isEmpty = true → patch.apply observed = observed) ∧
      (patch.isEmpty = true ↔ LacksOnlyNulls (differ.strip observed) (differ.strip desired)) :=
  ⟨by decide, by decide, by decide, rfl, rfl,
    diff_apply_diff (by decide) (by decide) (by decide) rfl rfl⟩

end Differ

end BuilderControl
