import BuilderControl.Proofs.Places

/-!
# Comparisons and the patches they compute

The patch that a comparison computes brings an observed document to the desired one, up to `null`
members and to the places that are left out, which stay as they were observed.

## Key results

- `diff_leadsUpToNulls`: with nothing left out, what the patch leads to
- `get?_standard_diff`: with the server's fields left out, what the patch says about a member
- `apply_standard_diff`: with the server's fields left out, what the patch leads to
-/

namespace BuilderControl.Differ

open Json

/-! ## Places that fields lead to -/

/-- Compares documents, leaving out places that fields lead to. -/
def ofFields (places : List (List String)) : Differ := ⟨places.map (·.map .field)⟩

/-- Places are taken out one after the other. -/
theorem strip_ofFields_cons (names : List String) (places : List (List String)) (j : Json) :
    (ofFields (names :: places)).strip j =
      (ofFields places).strip (j.without (names.map .field)) := rfl

section Strip

variable (places : List (List String)) {j : Json} (hj : j.WellFormed)
include hj

/-- A document stays well-formed when places are taken out. -/
theorem wellFormed_strip : ((ofFields places).strip j).WellFormed := by
  induction places generalizing j with
  | nil => exact hj
  | cons names places ih => exact ih (hj.without names)

/-- An object stays an object when places are taken out. -/
theorem isObject_strip : ((ofFields places).strip j).isObject = j.isObject := by
  induction places generalizing j with
  | nil => rfl
  | cons names places ih =>
    rw [strip_ofFields_cons, ih (hj.without names), isObject_without hj]

/-- What is not there is not there either when places are taken out. -/
theorem at?_strip_eq_none {names : List String} (h : j.at? names = none) :
    ((ofFields places).strip j).at? names = none := by
  induction places generalizing j with
  | nil => exact h
  | cons place places ih => exact ih (hj.without place) (at?_without_eq_none hj h place)

/-- Nothing is left at the places that are left out. -/
theorem at?_strip {names : List String} (hm : names ∈ places) (hn : names ≠ []) :
    ((ofFields places).strip j).at? names = none := by
  induction places generalizing j with
  | nil => cases hm
  | cons place places ih =>
    rw [strip_ofFields_cons]
    rcases List.mem_cons.1 hm with rfl | hm
    · exact at?_strip_eq_none places (hj.without names) (at?_without_self hj hn)
    · exact ih (hj.without place) hm

/-- What is neither below nor above the places that are taken out stays. -/
theorem at?_strip_of_apart {names : List String}
    (h : ∀ place ∈ places, ¬ place <+: names ∧ ¬ names <+: place) :
    ((ofFields places).strip j).at? names = j.at? names := by
  induction places generalizing j with
  | nil => rfl
  | cons place places ih =>
    obtain ⟨h₁, h₂⟩ := h place List.mem_cons_self
    rw [strip_ofFields_cons, ih (hj.without place) fun q hq => h q (List.mem_cons_of_mem _ hq),
      at?_without_of_apart hj h₁ h₂]

/-- What is left out below one member. -/
def below (k : String) (places : List (List String)) : List (List String) :=
  places.filterMap fun
    | l :: names => if l = k then some names else none
    | [] => none

/-- A member after the places that are left out were taken out. -/
theorem get?_strip (hp : ∀ names ∈ places, names ≠ []) (k : String) :
    ((ofFields places).strip j).get? k =
      if [k] ∈ places then none else (j.get? k).map (ofFields (below k places)).strip := by
  induction places generalizing j with
  | nil =>
    rw [if_neg List.not_mem_nil]
    show j.get? k = _
    cases j.get? k <;> rfl
  | cons names places ih =>
    obtain ⟨l, names, rfl⟩ := List.exists_cons_of_ne_nil (hp names List.mem_cons_self)
    rw [strip_ofFields_cons, ih (hj.without (l :: names)) fun q hq =>
      hp q (List.mem_cons_of_mem _ hq), get?_without hj]
    -- The place leads to this member or below it, or elsewhere
    by_cases hk : k = l
    · subst hk
      by_cases hnil : names = []
      · subst hnil; simp
      · have hne : [k] ≠ k :: names := fun h => hnil (List.cons.inj h).2.symm
        simp only [List.mem_cons, hne, false_or, if_true, if_neg hnil, below,
          List.filterMap_cons_some (b := names), Option.map_map]
        rfl
    · have hne : [k] ≠ l :: names := fun h => hk (List.cons.inj h).1
      have hbelow : below k ((l :: names) :: places) = below k places := by
        simp [below, Ne.symm hk]
      simp only [List.mem_cons, hne, false_or, if_neg hk, hbelow]

/-- A member after members of some keys were taken out. -/
theorem get?_strip_keys (keys : List String) (k : String) :
    ((ofFields (keys.map ([·]))).strip j).get? k = if k ∈ keys then none else j.get? k := by
  rw [get?_strip _ hj (by simp)]
  by_cases hk : k ∈ keys
  · simp [hk]
  · have hbelow : below k (keys.map ([·])) = [] := by
      simp only [below, List.filterMap_map, List.filterMap_eq_nil_iff, Function.comp_apply,
        ite_eq_right_iff, reduceCtorEq, imp_false]
      exact fun l hl heq => hk (heq ▸ hl)
    rw [if_neg (by simpa using hk), if_neg hk, hbelow]
    cases j.get? k <;> rfl

/-- A patch that is silent about the places that are left out can be applied before or after they
are taken out. -/
theorem strip_merge {v : Json} (hv : v.WellFormed)
    (hs : ∀ names ∈ places, names ≠ [] ∧ v.at? names = none) :
    (ofFields places).strip (j.merge v) = ((ofFields places).strip j).merge v := by
  induction places generalizing j with
  | nil => rfl
  | cons names places ih =>
    obtain ⟨hn, hat⟩ := hs names List.mem_cons_self
    rw [strip_ofFields_cons, strip_ofFields_cons, without_merge hj hv hn hat]
    exact ih (hj.without names) fun other hmem => hs other (List.mem_cons_of_mem _ hmem)

end Strip

/-! ## The patch between two objects -/

/-- The patch between two documents is the one between what is left of them. -/
theorem diff_of_strip {d : Differ} {o w : Json} {present wanted : Entries String Json}
    (ho : d.strip o = .obj present) (hw : d.strip w = .obj wanted) :
    d.diff o w = ⟨difference present wanted⟩ := by
  simp only [diff, compare, ho, hw]
  rfl

section Objects

variable (places : List (List String)) {observed desired : Json} (ho : observed.WellFormed)
  (hd : desired.WellFormed) (hoo : observed.isObject = true) (hdo : desired.isObject = true)

/-- What is left of an object is the object of its members. -/
theorem strip_eq_obj {j : Json} (hj : j.WellFormed) (hobj : j.isObject = true) :
    (ofFields places).strip j = .obj ((ofFields places).strip j).members := by
  obtain ⟨ms, hms⟩ := isObject_iff.1 ((isObject_strip places hj).trans hobj)
  rw [hms]
  rfl

include ho hd hoo hdo

/-- The patch between two objects is the one between the members that are left of them. -/
theorem diff_obj : (ofFields places).diff observed desired =
    ⟨difference ((ofFields places).strip observed).members
      ((ofFields places).strip desired).members⟩ :=
  diff_of_strip (strip_eq_obj places ho hoo) (strip_eq_obj places hd hdo)

/-- The patch between two objects is well-formed. -/
theorem wellFormed_diff : ((ofFields places).diff observed desired).toJson.WellFormed := by
  rw [diff_obj places ho hd hoo hdo]
  exact WellFormed.difference (strip_eq_obj places hd hdo ▸ wellFormed_strip places hd)

/-- A patch is silent about the places that are left out. -/
theorem at?_diff {names : List String} (hm : names ∈ places) (hn : names ≠ []) :
    ((ofFields places).diff observed desired).toJson.at? names = none := by
  rw [diff_obj places ho hd hoo hdo]
  refine at?_difference (strip_eq_obj places hd hdo ▸ wellFormed_strip places hd) ?_ ?_
  · rw [← strip_eq_obj places ho hoo]
    exact at?_strip places ho hm hn
  · rw [← strip_eq_obj places hd hdo]
    exact at?_strip places hd hm hn

/-- But for the places that are left out, the observed document is brought to the desired one. -/
theorem canon_strip_apply_diff (hp : ∀ names ∈ places, names ≠ [])
    (hf : ((ofFields places).strip desired).NullFree) :
    ((ofFields places).strip
        (((ofFields places).diff observed desired).apply observed)).canon =
      ((ofFields places).strip desired).canon := by
  have hsilent := fun names hm => at?_diff places ho hd hoo hdo hm (hp names hm)
  -- The patch is silent about the places, so it does not matter when they are taken out
  rw [MergePatch.apply, strip_merge places ho (wellFormed_diff places ho hd hoo hdo)
    fun names hm => ⟨hp names hm, hsilent names hm⟩]
  have hdw := wellFormed_strip places hd
  rw [strip_eq_obj places hd hdo] at hf hdw ⊢
  have how := wellFormed_strip places ho
  rw [strip_eq_obj places ho hoo] at how ⊢
  rw [diff_obj places ho hd hoo hdo]
  exact NullFree.canon_merge_difference how hdw hf

end Objects

/-- What a patch does that brings an observed document to a desired one as far as merge patches
can: they have no way to set a member to `null`. -/
structure LeadsUpToNulls (observed desired : Json) (patch : MergePatch) : Prop where
  /-- But for `null` members, the desired document is reached. -/
  same_withoutNulls : (patch.apply observed).withoutNulls.same desired.withoutNulls = true
  /-- No member is left that is not desired. -/
  contains : ∀ (names : List String) (rs ds : Entries String Json),
    (patch.apply observed).lookup (names.map .field) = .ok (.obj rs) →
    desired.lookup (names.map .field) = .ok (.obj ds) →
    ∀ k, rs.contains k = true → ds.contains k = true
  /-- `null` members are left where they are both observed and desired. -/
  null_iff : ∀ names : List String, names ≠ [] →
    ((patch.apply observed).lookup (names.map .field) = .ok .null ↔
      observed.lookup (names.map .field) = .ok .null ∧
      desired.lookup (names.map .field) = .ok .null)
  /-- Without `null` members, the desired document is reached as it is. -/
  same_of_nullFree : desired.NullFree → (patch.apply observed).same desired = true
  /-- Without `null` members, nothing is said if nothing has to change. -/
  isEmpty_iff : desired.NullFree → (patch.isEmpty = true ↔ observed.same desired = true)

/-- With nothing left out, the patch between two objects leads from the one to the other up to
`null` members. -/
theorem diff_leadsUpToNulls {observed desired : Entries String Json}
    (ho : (Json.obj observed).WellFormed) (hd : (Json.obj desired).WellFormed) :
    LeadsUpToNulls (.obj observed) (.obj desired)
      (Differ.diff ⟨[]⟩ (.obj observed) (.obj desired)) := by
  -- With nothing left out, whole objects are compared
  have hpatch : Differ.diff ⟨[]⟩ (.obj observed) (.obj desired) =
      ⟨difference observed desired⟩ := diff_of_strip rfl rfl
  rw [hpatch]
  refine ⟨same_iff.2 (canon_withoutNulls_merge_difference ho hd), ?_, ?_, fun hfree => ?_,
    fun hfree => ?_⟩
  · intro names rs ds hr hds k hk
    rw [lookup_fields] at hr hds
    exact contains_of_merge_difference ho hd hr hds hk
  · intro names hn
    rw [lookup_fields, lookup_fields, lookup_fields]
    exact at?_merge_difference_null ho hd hn
  · exact same_iff.2 (NullFree.canon_merge_difference ho hd hfree)
  · rw [same_iff, ← NullFree.difference_eq_nil_iff ho hd hfree]
    exact List.isEmpty_iff

/-- Equal, added, removed and replaced `null` members, and an object that is inserted whole. -/
theorem diff_leadsUpToNulls_mixed :
    let observed : Entries String Json :=
      [("a", .null), ("b", .obj [("x", .null), ("y", .bool true)]), ("c", .str "old")]
    let desired : Entries String Json :=
      [("a", .null), ("b", .obj [("x", .null), ("z", .null)]), ("c", .null),
        ("d", .obj [("n", .null)])]
    (Json.obj observed).WellFormed ∧ (Json.obj desired).WellFormed ∧
      LeadsUpToNulls (.obj observed) (.obj desired)
        (Differ.diff ⟨[]⟩ (.obj observed) (.obj desired)) :=
  ⟨by decide, by decide, diff_leadsUpToNulls (by decide) (by decide)⟩

/-! ## Fields that the server owns -/

/-- The names that lead to the fields that the server owns. -/
def serverOwnedFields : List (List String) :=
  [["status"], ["metadata", "managedFields"], ["metadata", "resourceVersion"],
    ["metadata", "generation"], ["metadata", "uid"], ["metadata", "creationTimestamp"],
    ["metadata", "selfLink"]]

/-- Keys of the metadata that the server owns. -/
def ownedMetadata : List String :=
  ["managedFields", "resourceVersion", "generation", "uid", "creationTimestamp", "selfLink"]

/-- The metadata without what the server owns. -/
def stripMetadata (metadata : Json) : Json := (ofFields (ownedMetadata.map ([·]))).strip metadata

/-- What is left of well-formed metadata is well-formed. -/
theorem wellFormed_stripMetadata {j : Json} (hj : j.WellFormed) : (stripMetadata j).WellFormed :=
  wellFormed_strip _ hj

/-- What is left of metadata is an object if the metadata is. -/
theorem isObject_stripMetadata {j : Json} (hj : j.WellFormed) :
    (stripMetadata j).isObject = j.isObject :=
  isObject_strip _ hj

/-- Of the metadata, the members that the server owns are taken out. -/
theorem get?_stripMetadata {j : Json} (hj : j.WellFormed) (k : String) :
    (stripMetadata j).get? k = if k ∈ ownedMetadata then none else j.get? k :=
  get?_strip_keys hj ownedMetadata k

/-- By default, the fields that the server owns are left out. -/
theorem standard_eq_ofFields : standard = ofFields serverOwnedFields := rfl

/-- No field that the server owns is the document itself. -/
theorem ne_nil_of_mem_serverOwnedFields : ∀ names ∈ serverOwnedFields, names ≠ [] := by
  decide

/-- A field that the server owns is the status, or a member of the metadata. -/
theorem eq_of_mem_serverOwnedFields : ∀ names ∈ serverOwnedFields,
    names = ["status"] ∨ ∃ k, names = ["metadata", k] := by
  intro names hm
  simp only [serverOwnedFields, List.mem_cons, List.not_mem_nil, or_false] at hm
  rcases hm with rfl | rfl | rfl | rfl | rfl | rfl | rfl <;> simp

/-- A member after the fields that the server owns were taken out. -/
theorem get?_standard_strip {j : Json} (hj : j.WellFormed) (k : String) :
    (standard.strip j).get? k =
      if k = "status" then none
      else if k = "metadata" then (j.get? k).map stripMetadata else j.get? k := by
  rw [standard_eq_ofFields, get?_strip _ hj ne_nil_of_mem_serverOwnedFields]
  have hmem : [k] ∈ serverOwnedFields ↔ k = "status" := by simp [serverOwnedFields]
  by_cases hs : k = "status"
  · rw [if_pos (hmem.2 hs), if_pos hs]
  · rw [if_neg (mt hmem.1 hs), if_neg hs]
    split
    · rename_i hm
      subst hm
      rfl
    · rename_i hm
      -- Nothing is left out below any other member
      have hbelow : below k serverOwnedFields = [] := by
        simp [below, serverOwnedFields, Ne.symm hs, Ne.symm hm]
      rw [hbelow]
      cases j.get? k <;> rfl

/-- The metadata is an object on both sides, or on neither side is there any. -/
def MetadataAlike (observed desired : Json) : Prop :=
  (∃ om dm, observed.get? "metadata" = some (.obj om) ∧ desired.get? "metadata" = some (.obj dm)) ∨
    (observed.get? "metadata" = none ∧ desired.get? "metadata" = none)

/-- What a patch says about a member, with the server's fields left out. -/
theorem get?_standard_diff {observed desired : Json} (ho : observed.WellFormed)
    (hd : desired.WellFormed) (hoo : observed.isObject = true) (hdo : desired.isObject = true)
    (k : String) : (standard.diff observed desired).toJson.get? k =
      if k = "status" then none
      else if k = "metadata" then changeMember ((observed.get? k).map stripMetadata)
        ((desired.get? k).map stripMetadata)
      else changeMember (observed.get? k) (desired.get? k) := by
  have hsorted := (wellFormed_strip serverOwnedFields hd).members_sorted
  rw [standard_eq_ofFields, diff_obj serverOwnedFields ho hd hoo hdo, MergePatch.toJson, get?_obj,
    get?_difference _ hsorted]
  show changeMember ((standard.strip observed).get? k) ((standard.strip desired).get? k) = _
  rw [get?_standard_strip ho, get?_standard_strip hd]
  split
  · rfl
  · split <;> rfl

/-- If the metadata is alike, a patch says nothing about it or goes into it. -/
theorem standard_diff_get?_metadata {observed desired : Json} (ho : observed.WellFormed)
    (hd : desired.WellFormed) (hoo : observed.isObject = true) (hdo : desired.isObject = true)
    (hm : MetadataAlike observed desired) :
    (standard.diff observed desired).toJson.get? "metadata" = none ∨
      ∃ om ms, observed.get? "metadata" = some (.obj om) ∧
        (standard.diff observed desired).toJson.get? "metadata" = some (.obj ms) := by
  rw [get?_standard_diff ho hd hoo hdo, if_neg (by simp), if_pos rfl]
  rcases hm with ⟨om, dm, hom, hdm⟩ | ⟨hom, hdm⟩
  · -- Two objects: they are the same, or there is a patch between them
    obtain ⟨os, hos⟩ := isObject_iff.1 ((isObject_stripMetadata (ho.get? hom)).trans rfl)
    obtain ⟨ds, hds⟩ := isObject_iff.1 ((isObject_stripMetadata (hd.get? hdm)).trans rfl)
    rw [hom, hdm, Option.map_some, Option.map_some, hos, hds, changeMember_some, change_obj_obj]
    split
    · exact Or.inl rfl
    · exact Or.inr ⟨om, _, rfl, rfl⟩
  · rw [hom, hdm]
    exact Or.inl rfl

/-- A field that the server owns is left as it was observed, or absent for the same reason. -/
theorem lookup_apply_standard_diff {observed desired : Json} (ho : observed.WellFormed)
    (hd : desired.WellFormed) (hoo : observed.isObject = true) (hdo : desired.isObject = true)
    (hm : MetadataAlike observed desired) {names : List String} (hn : names ∈ serverOwnedFields) :
    ((standard.diff observed desired).apply observed).lookup (names.map .field) =
      observed.lookup (names.map .field) := by
  have hw : (standard.diff observed desired).toJson.WellFormed :=
    wellFormed_diff serverOwnedFields ho hd hoo hdo
  have hsilent : (standard.diff observed desired).toJson.at? names = none :=
    at?_diff serverOwnedFields ho hd hoo hdo hn (ne_nil_of_mem_serverOwnedFields _ hn)
  have hget : ∀ k, ((standard.diff observed desired).apply observed).get? k =
      mergeMember (observed.get? k) ((standard.diff observed desired).toJson.get? k) :=
    fun k => get?_merge ho hw.sorted k
  have hkeep : ∀ k, (standard.diff observed desired).toJson.get? k = none →
      ((standard.diff observed desired).apply observed).get? k = observed.get? k := by
    intro k hk
    rw [hget, hk]
    rfl
  -- The status is a member of its own, and all other fields are below the metadata
  rcases eq_of_mem_serverOwnedFields names hn with rfl | ⟨k, rfl⟩
  · refine lookupFrom_congr rfl hoo (hkeep "status" ?_) [] []
    simpa using hsilent
  · rcases standard_diff_get?_metadata ho hd hoo hdo hm with hnone | ⟨om, ms, hom, hms⟩
    · exact lookupFrom_congr rfl hoo (hkeep "metadata" hnone) [] [.field k]
    · -- The patch goes into the metadata but says nothing about this field
      rw [at?_cons, hms, Option.bind_some, at?_cons, get?_obj] at hsilent
      have hk : Entries.get? ms k = none := by simpa using hsilent
      have hmerged : ((standard.diff observed desired).apply observed).get? "metadata" =
          some ((Json.obj om).merge (.obj ms)) := by
        rw [hget, hom, hms, mergeMember_some _ (by simp)]
        rfl
      have hsorted := (hw.get? hms).sorted
      refine (lookupFrom_cons_of_get? hmerged [] [.field k]).trans
        ((lookupFrom_congr rfl rfl ?_ [.field "metadata"] []).trans
          (lookupFrom_cons_of_get? hom [] [.field k]).symm)
      rw [get?_merge (ho.get? hom) hsorted, hk]
      rfl

/-- With the server's fields left out, the patch between two objects brings the observed one to the
desired one everywhere else, and leaves these fields as they were observed. -/
theorem apply_standard_diff {observed desired : Entries String Json}
    (ho : (Json.obj observed).WellFormed) (hd : (Json.obj desired).WellFormed)
    (hm : MetadataAlike (.obj observed) (.obj desired))
    (hf : (standard.strip (.obj desired)).NullFree) :
    let result := (standard.diff (.obj observed) (.obj desired)).apply (.obj observed)
    (standard.strip result).same (standard.strip (.obj desired)) = true ∧
    (∀ names : List String,
      (∀ place ∈ serverOwnedFields, ¬ place <+: names ∧ ¬ names <+: place) →
      (result.at? names).map canon = ((Json.obj desired).at? names).map canon) ∧
    ∀ path ∈ serverOwned, result.lookup path = (Json.obj observed).lookup path := by
  intro result
  have hrw : result.WellFormed :=
    ho.merge (wellFormed_diff serverOwnedFields ho hd rfl rfl)
  have hcanon : (standard.strip result).canon = (standard.strip (.obj desired)).canon :=
    canon_strip_apply_diff serverOwnedFields ho hd rfl rfl
      ne_nil_of_mem_serverOwnedFields hf
  -- Away from the fields that are left out, nothing was taken out of either side
  refine ⟨same_iff.2 hcanon, fun names hapart => ?_, fun path hpath => ?_⟩
  · rw [← at?_strip_of_apart serverOwnedFields hrw hapart,
      ← at?_strip_of_apart serverOwnedFields hd hapart, ← at?_canon, ← at?_canon]
    exact congrArg (at? · names) hcanon
  · obtain ⟨names, hn, rfl⟩ := List.mem_map.1
      (show path ∈ serverOwnedFields.map (·.map .field) from hpath)
    exact lookup_apply_standard_diff ho hd rfl rfl hm hn

/-- A stale version whose metadata and spec have moved on. -/
theorem apply_standard_diff_stale :
    let observed : Entries String Json :=
      [("metadata", .obj [("generation", .num (.int 3)), ("labels", .obj [("a", .str "1")]),
          ("uid", .str "0f6c")]),
        ("spec", .obj [("stack", .obj [("name", .str "base")])]), ("status", .obj [])]
    let desired : Entries String Json :=
      [("metadata", .obj [("generation", .num (.int 1)), ("labels", .obj [])]),
        ("spec", .obj [("stack", .obj [("name", .str "tiny")])]),
        ("status", .obj [("observedGeneration", .null)])]
    let result := (standard.diff (.obj observed) (.obj desired)).apply (.obj observed)
    (Json.obj observed).WellFormed ∧ (Json.obj desired).WellFormed ∧
      MetadataAlike (.obj observed) (.obj desired) ∧
      (standard.strip (.obj desired)).NullFree ∧
      (standard.strip result).same (standard.strip (.obj desired)) = true ∧
      (∀ names : List String,
        (∀ place ∈ serverOwnedFields, ¬ place <+: names ∧ ¬ names <+: place) →
        (result.at? names).map canon = ((Json.obj desired).at? names).map canon) ∧
      ∀ path ∈ serverOwned, result.lookup path = (Json.obj observed).lookup path := by
  intro observed desired result
  have hm : MetadataAlike (.obj observed) (.obj desired) := Or.inl ⟨_, _, rfl, rfl⟩
  have hf : (standard.strip (.obj desired)).NullFree := (nullFree_iff (by decide)).2 (by decide)
  exact ⟨by decide, by decide, hm, hf, apply_standard_diff (by decide) (by decide) hm hf⟩

end BuilderControl.Differ
