import BuilderControl.Proofs.Comparison
import BuilderControl.Proofs.Leaves

/-!
# Places that are left out have no part in a comparison

Taking out places goes through them one after the other, and a removal that fails is passed over.
What is left does not depend on their order all the same: under each key it is what is left of the
member, unless the key itself is left out.  So a place can be taken out once more beforehand, and
whatever was put there is gone before documents are compared.

## Key results

- `strip_congr`: what is left is up to which places are left out, not to how they are listed
- `strip_of_editedAt`: what stands at a place that is left out does not matter
- `diff_ignores`: places that are left out neither influence a patch nor occur in it
-/

namespace BuilderControl

namespace Json

/-- The document after the value at a place was inserted, replaced or removed.  What has the value
as a member is an object that was there before. -/
inductive EditedAt : List String → Json → Json → Prop
  | here {ms : Entries String Json} (k : String) (value : Option Json)
      (hvalue : ∀ v, value = some v → v.WellFormed) :
      EditedAt [k] (.obj ms) (.obj (Entries.assign ms k value))
  | inside {j v w : Json} {k : String} {names : List String} (hv : j.get? k = some v)
      (h : EditedAt names v w) : EditedAt (k :: names) j (j.set k w)

namespace EditedAt

variable {place : List String} {j edited : Json} (h : EditedAt place j edited)
include h

/-- An edit is made in an object, and leaves one. -/
theorem isObject : j.isObject = true ∧ edited.isObject = true := by
  cases h with
  | here k value hvalue => exact ⟨rfl, rfl⟩
  | inside hv h => exact ⟨isObject_of_get? hv, rfl⟩

/-- An edit keeps a document well-formed. -/
theorem wellFormed (hj : j.WellFormed) : edited.WellFormed := by
  induction h with
  | @here ms k value hvalue =>
    refine wellFormed_obj.2 ⟨hj.sorted.assign k value, fun k' v hg => ?_⟩
    rw [hj.sorted.get?_assign] at hg
    split at hg
    · exact hvalue v hg
    · exact hj.member hg
  | @inside j v w k names hv _ ih => exact hj.set (ih (hj.get? hv)) k

/-- Once the place is taken out, nothing is left of the edit. -/
theorem without_eq (hj : j.WellFormed) :
    edited.without (place.map .field) = j.without (place.map .field) := by
  induction h with
  | @here ms k value hvalue =>
    rw [List.map_singleton, without_field, without_field]
    -- The member that was assigned is erased
    refine congrArg Json.obj (((hj.sorted.assign k value).erase k).ext (hj.sorted.erase k)
      fun k' => ?_)
    simp only [members_obj]
    rw [(hj.sorted.assign k value).get?_erase, hj.sorted.get?_erase, hj.sorted.get?_assign]
    split <;> rfl
  | @inside j v w k names hv hinside ih =>
    have hset : (j.set k w).WellFormed := hj.set (hinside.wellFormed (hj.get? hv)) k
    refine (hset.without (k :: names)).ext (hj.without (k :: names)) ?_ ?_ fun k' => ?_
    · rw [isObject_without hset]
      rfl
    · rw [isObject_without hj]
      exact isObject_of_get? hv
    · -- The edit shows below the member only, and there the rest of the place is taken out
      rw [get?_without hset, get?_without hj, get?_set, get?_set, if_pos rfl]
      by_cases hk : k' = k
      · rw [if_pos hk, if_pos hk, hv, Option.map_some, Option.map_some, ih (hj.get? hv)]
      · rw [if_neg hk, if_neg hk, if_neg hk]

end EditedAt

end Json

namespace Differ

open Json

/-! ## Which places are taken out, and in which order -/

/-- What is left out below a member is what is left out by way of it. -/
theorem mem_below {k : String} {names : List String} {places : List (List String)} :
    names ∈ below k places ↔ k :: names ∈ places := by
  rw [below, List.mem_filterMap]
  constructor
  · rintro ⟨place, hplace, h⟩
    cases place with
    | nil => cases h
    | cons l rest =>
      simp only [Option.ite_none_right_eq_some, Option.some.injEq] at h
      rw [← h.1, ← h.2]
      exact hplace
  · exact fun h => ⟨k :: names, h, if_pos rfl⟩

/-- From what is no object, nothing is taken out. -/
theorem strip_of_not_isObject (places : List (List String)) {j : Json} (h : j.isObject = false) :
    (ofFields places).strip j = j := by
  induction places with
  | nil => rfl
  | cons names places ih => rw [strip_ofFields_cons, without_of_not_isObject h, ih]

/-- What is left is up to which places are left out, in whatever order and however often they are
listed. -/
theorem strip_congr {places others : List (List String)} (hp : ∀ names ∈ places, names ≠ [])
    (h : ∀ names, names ∈ others ↔ names ∈ places) {j : Json} (hj : j.WellFormed) :
    (ofFields others).strip j = (ofFields places).strip j := by
  -- By induction on the document, for whatever is left out below a member
  induction j using byMembers generalizing places others with
  | obj ms ih =>
    have ho : ∀ names ∈ others, names ≠ [] := fun names hm => hp names ((h names).1 hm)
    refine (wellFormed_strip others hj).ext (wellFormed_strip places hj)
      (isObject_strip others hj) (isObject_strip places hj) fun k => ?_
    rw [get?_strip others hj ho, get?_strip places hj hp]
    simp only [h]
    split
    · rfl
    · -- The key is not left out, so there are names on every way below it
      rename_i hk
      cases hg : (Json.obj ms).get? k with
      | none => rfl
      | some v =>
        refine congrArg some (ih k v hg (fun names hm hnil => hk ?_) (fun names => ?_)
          (hj.member hg))
        · subst hnil
          exact mem_below.1 hm
        · rw [mem_below, mem_below, h]
  | _ => rw [strip_of_not_isObject others rfl, strip_of_not_isObject places rfl]

/-- A place that is left out can as well be taken out beforehand. -/
theorem strip_without {places : List (List String)} (hp : ∀ names ∈ places, names ≠ [])
    {names : List String} (hm : names ∈ places) {j : Json} (hj : j.WellFormed) :
    (ofFields places).strip (j.without (names.map .field)) = (ofFields places).strip j := by
  rw [← strip_ofFields_cons]
  refine strip_congr hp (fun other => ?_) hj
  rw [List.mem_cons, or_iff_right_iff_imp]
  rintro rfl
  exact hm

/-- What stands at a place that is left out does not matter. -/
theorem strip_of_editedAt {places : List (List String)}
    (hp : ∀ names ∈ places, names ≠ []) {names : List String} (hm : names ∈ places)
    {j edited : Json} (hj : j.WellFormed) (h : EditedAt names j edited) :
    (ofFields places).strip edited = (ofFields places).strip j := by
  rw [← strip_without hp hm (h.wellFormed hj), h.without_eq hj, strip_without hp hm hj]

/-! ## Patches -/

/-- The patch depends on what is left of both sides only. -/
theorem diff_congr {d e : Differ} {observed observed' desired desired' : Json}
    (ho : d.strip observed = e.strip observed') (hd : d.strip desired = e.strip desired') :
    d.diff observed desired = e.diff observed' desired' := by
  simp only [diff, compare, ho, hd]

/-- Where one side is no object, the patch is empty or all of the desired document. -/
theorem toJson_diff_of_not_isObject (places : List (List String)) {observed desired : Json}
    (ho : observed.WellFormed) (hd : desired.WellFormed)
    (h : observed.isObject = false ∨ desired.isObject = false) :
    ((ofFields places).diff observed desired).toJson = .obj [] ∨
      ((ofFields places).diff observed desired).toJson = (ofFields places).strip desired := by
  have hos := isObject_strip places ho
  have hds := isObject_strip places hd
  simp only [diff, compare]
  split
  · -- Both sides would be objects
    rename_i hpresent hwanted
    rw [hpresent] at hos
    rw [hwanted] at hds
    rw [← hos, ← hds] at h
    simp [isObject] at h
  · split
    · exact Or.inl rfl
    · -- A value that is no object has no members to patch
      cases hobj : ((ofFields places).strip desired).isObject with
      | false => exact Or.inl (congrArg Json.obj (members_of_not_isObject hobj))
      | true =>
        obtain ⟨ms, hms⟩ := isObject_iff.1 hobj
        rw [hms]
        exact Or.inr rfl

/-- Whatever is compared, the patch has nothing at the places that are left out. -/
theorem has_diff_eq_false {places : List (List String)} {observed desired : Json}
    (ho : observed.WellFormed) (hd : desired.WellFormed) {names : List String}
    (hm : names ∈ places) (hn : names ≠ []) :
    ((ofFields places).diff observed desired).toJson.has (names.map .field) = false := by
  refine has_fields_eq_false ?_
  by_cases h : observed.isObject = true ∧ desired.isObject = true
  · exact at?_diff places ho hd h.1 h.2 hm hn
  · rw [Decidable.not_and_iff_not_or_not, Bool.not_eq_true, Bool.not_eq_true] at h
    -- Nothing is compared, so there is no patch or all that is left of the desired document
    rcases toJson_diff_of_not_isObject places ho hd h with hpatch | hpatch
    · obtain ⟨k, rest, rfl⟩ := List.exists_cons_of_ne_nil hn
      rw [hpatch]
      rfl
    · rw [hpatch]
      exact at?_strip places hd hm hn

/-- What it means that a comparison ignores the places that it leaves out. -/
structure Ignores (places : List (List String)) (observed desired : Json) : Prop where
  /-- It does not matter in which order and how often the places are listed. -/
  relisted : ∀ others, (∀ names, names ∈ others ↔ names ∈ places) →
    (ofFields others).diff observed desired = (ofFields places).diff observed desired
  /-- It does not matter what is observed there. -/
  of_observed : ∀ names ∈ places, ∀ edited, EditedAt names observed edited →
    (ofFields places).diff edited desired = (ofFields places).diff observed desired
  /-- It does not matter what is desired there. -/
  of_desired : ∀ names ∈ places, ∀ edited, EditedAt names desired edited →
    (ofFields places).diff observed edited = (ofFields places).diff observed desired
  /-- The patch has nothing there. -/
  silent : ∀ names ∈ places,
    ((ofFields places).diff observed desired).toJson.has (names.map .field) = false

/-- Places that are left out neither influence a patch nor occur in it, whichever documents are
compared. -/
theorem diff_ignores {places : List (List String)} (hp : ∀ names ∈ places, names ≠ [])
    {observed desired : Json} (ho : observed.WellFormed) (hd : desired.WellFormed) :
    Ignores places observed desired where
  relisted _ h := diff_congr (strip_congr hp h ho) (strip_congr hp h hd)
  of_observed _ hm _ h := diff_congr (strip_of_editedAt hp hm ho h) rfl
  of_desired _ hm _ h := diff_congr rfl (strip_of_editedAt hp hm hd h)
  silent names hm := has_diff_eq_false ho hd hm (hp names hm)

/-- A place is listed twice, another one lies above it, and one leads through what is no object.
The observed document is edited where a place leads on. -/
theorem diff_ignores_overlapping :
    let places := [["a", "b"], ["a"], ["a", "b"], ["x", "y", "z"]]
    let observed : Json := .obj [("a", .obj [("b", .null)]), ("x", .obj [("y", .num (.int 1))])]
    let desired : Json := .obj [("a", .num (.int 2)), ("x", .obj [("y", .obj [("z", .null)])])]
    let edited : Json :=
      .obj [("a", .obj [("b", .obj [("c", .str "")])]), ("x", .obj [("y", .num (.int 1))])]
    (∀ names ∈ places, names ≠ []) ∧ observed.WellFormed ∧ desired.WellFormed ∧
      EditedAt ["a", "b"] observed edited ∧ Ignores places observed desired := by
  intro places observed desired edited
  have hedited : EditedAt ["a", "b"] observed edited :=
    .inside (j := observed) (v := .obj [("b", .null)]) rfl
      (.here "b" (some (.obj [("c", .str "")])) fun _ h => Option.some.inj h ▸ by decide)
  exact ⟨by decide, by decide, by decide, hedited,
    diff_ignores (by decide) (by decide) (by decide)⟩

end Differ

end BuilderControl
