import BuilderControl.Proofs.Settled

/-!
# Leaving places out of a comparison

Taking a place out of a document concerns one member on each level.  A patch that says nothing
about a place can be applied before or after the place is taken out, so whatever is left out of a
comparison is left alone by the patch.

## Key results

- `get?_without`: what taking out a place makes of one member
- `without_merge`: a patch that is silent about a place commutes with taking it out
- `at?_difference`: a patch is silent about what neither side has
-/

namespace BuilderControl

namespace Json

/-! ## Taking out one place -/

/-- Errors can be forgotten before or after a result is changed. -/
private theorem toOption_map {ε α β : Type} (x : Except ε α) (f : α → β) :
    (x.map f).toOption = x.toOption.map f := by
  cases x <;> rfl

/-- Whether a removal succeeds, and what it leaves, does not depend on how the document was
reached. -/
private theorem modifyFrom_drop_toOption (step : Step) (place place' : Path) (j : Json)
    (path : Path) :
    (modifyFrom (fun at' parent => (parent.dropChild step).mapError (.at at')) place j
        path).toOption =
      (modifyFrom (fun at' parent => (parent.dropChild step).mapError (.at at')) place' j
        path).toOption := by
  induction path generalizing place place' j with
  | nil => simp only [modifyFrom]; cases j.dropChild step <;> rfl
  | cons s path ih =>
    simp only [modifyFrom]
    cases j.child s with
    | error e => rfl
    | ok v => rw [toOption_map, toOption_map, ih (place ++ [s]) (place' ++ [s]) v]

/-- A place is taken out if it can be, and else nothing is. -/
private theorem without_eq (j : Json) (path : Path) :
    j.without path = ((j.remove path).toOption.map Prod.snd).getD j := by
  unfold without
  cases j.remove path <;> rfl

/-- Taking out one field erases the member, if there are members. -/
theorem without_field (j : Json) (k : String) :
    j.without [.field k] = if j.isObject then .obj (Entries.erase j.members k) else j := by
  cases j <;> rfl

/-- Below a member, a removal goes on in that member. -/
theorem without_cons {j : Json} (hj : j.WellFormed) (k : String) (step : Step) (path : Path) :
    j.without (.field k :: step :: path) =
      match j.get? k with
      | some v => j.set k (v.without (step :: path))
      | none => j := by
  have hlast : (Step.field k :: step :: path).getLast? = (step :: path).getLast? := by simp
  -- Removing goes through the member, if it is there, and puts it back
  have hremove : (j.remove (.field k :: step :: path)).toOption =
      match j.get? k with
      | some v => (v.remove (step :: path)).toOption.map fun (x, w) => (x, j.setChild (.field k) w)
      | none => none := by
    obtain ⟨last, hl⟩ : ∃ last, (step :: path).getLast? = some last :=
      ⟨_, List.getLast?_eq_some_getLast (List.cons_ne_nil _ _)⟩
    -- Both removals drop the same last child, one of them from further down
    simp only [remove, hlast, hl, List.dropLast_cons_cons, modifyFrom]
    cases hg : j.get? k with
    | some v =>
      rw [child_field_ok.2 hg]
      simp only
      rw [← modifyFrom_drop_toOption last ([] ++ [.field k]) [] v]
      cases modifyFrom _ ([] ++ [Step.field k]) v _ <;> rfl
    | none =>
      cases hc : j.child (.field k) with
      | ok v => rw [child_field_ok.1 hc] at hg; cases hg
      | error e => rfl
  rw [without_eq, hremove]
  cases hg : j.get? k with
  | none => rfl
  | some v =>
    obtain ⟨ms, rfl⟩ := isObject_iff.1 (isObject_of_get? hg)
    simp only [without_eq v]
    -- If nothing is removed, the member is put back as it was
    cases (v.remove (step :: path)).toOption with
    | some p => rfl
    | none => exact congrArg Json.obj (hj.sorted.insert_get? hg).symm

/-- An object stays an object when a place is taken out. -/
theorem isObject_without {j : Json} (hj : j.WellFormed) (names : List String) :
    (j.without (names.map .field)).isObject = j.isObject := by
  match names with
  | [] => rfl
  | [k] =>
    rw [List.map_singleton, without_field]
    cases j <;> rfl
  | k :: l :: names =>
    rw [List.map_cons, List.map_cons, without_cons hj]
    cases hg : j.get? k with
    | none => rfl
    | some v => exact (isObject_of_get? hg).symm

/-- A member after a place was taken out: it is gone if it is that place, and otherwise the rest of
the place is taken out of it. -/
theorem get?_without {j : Json} (hj : j.WellFormed) (k : String) (names : List String)
    (k' : String) :
    (j.without ((k :: names).map .field)).get? k' =
      if k' = k then
        if names = [] then none else (j.get? k).map (·.without (names.map .field))
      else j.get? k' := by
  match names with
  | [] =>
    rw [List.map_singleton, without_field]
    cases j with
    | obj ms => exact hj.sorted.get?_erase k k'
    | _ => simp [Json.get?, isObject, members]
  | l :: names =>
    rw [List.map_cons, List.map_cons, without_cons hj]
    cases hg : j.get? k with
    | none =>
      by_cases hk : k' = k
      · subst hk; simp [hg]
      · simp [hk]
    | some v => simp only [get?_set]; split <;> simp

/-- A document stays well-formed when a place is taken out. -/
theorem WellFormed.without {j : Json} (hj : j.WellFormed) (names : List String) :
    (j.without (names.map .field)).WellFormed := by
  induction names generalizing j with
  | nil => exact hj
  | cons k names ih =>
    match names with
    | [] =>
      rw [List.map_singleton, without_field]
      split
      · -- The member is erased from its object
        refine wellFormed_obj.2 ⟨hj.members_sorted.erase k, fun k' v hg => ?_⟩
        rw [hj.members_sorted.get?_erase] at hg
        split at hg
        · cases hg
        · exact hj.get? hg
      · exact hj
    | l :: names =>
      rw [List.map_cons, List.map_cons, without_cons hj]
      cases hg : j.get? k with
      | none => exact hj
      | some v => exact hj.set (ih (hj.get? hg)) k

/-- What is no object has no place to take out. -/
theorem without_of_not_isObject {j : Json} (h : j.isObject = false) (names : List String) :
    j.without (names.map .field) = j := by
  match names with
  | [] => rfl
  | [k] => rw [List.map_singleton, without_field, h]; rfl
  | k :: l :: names => cases j <;> first | rfl | cases h

/-- Nothing is left at a place that was taken out. -/
theorem at?_without_self {j : Json} (hj : j.WellFormed) {names : List String} (hn : names ≠ []) :
    (j.without (names.map .field)).at? names = none := by
  induction names generalizing j with
  | nil => exact absurd rfl hn
  | cons k names ih =>
    rw [at?_cons, get?_without hj, if_pos rfl]
    split
    · rfl
    · -- The place goes on below the member, if that is there
      rename_i hne
      cases hg : j.get? k with
      | none => rfl
      | some v => exact ih (hj.get? hg) hne

/-- Taking out a place puts nothing anywhere. -/
theorem at?_without_eq_none {j : Json} (hj : j.WellFormed) {names : List String}
    (h : j.at? names = none) (place : List String) :
    (j.without (place.map .field)).at? names = none := by
  induction names generalizing j place with
  | nil => cases h
  | cons k names ih =>
    cases place with
    | nil => exact h
    | cons l place =>
      rw [at?_cons, get?_without hj]
      split
      · rename_i hk
        subst hk
        split
        · rfl
        · cases hg : j.get? k with
          | none => rfl
          | some v => exact ih (hj.get? hg) (by rw [at?_cons, hg] at h; exact h) place
      · exact h

/-- Taking out a place changes nothing at a place that is neither above nor below it. -/
theorem at?_without_of_apart {j : Json} (hj : j.WellFormed) {names place : List String}
    (h : ¬ place <+: names) (h' : ¬ names <+: place) :
    (j.without (place.map .field)).at? names = j.at? names := by
  induction names generalizing j place with
  | nil => exact absurd List.nil_prefix h'
  | cons k names ih =>
    cases place with
    | nil => exact absurd List.nil_prefix h
    | cons l place =>
      rw [at?_cons, at?_cons, get?_without hj]
      split
      · rename_i hk
        subst hk
        -- Both places go through this member, so they are apart below it
        rw [List.cons_prefix_cons] at h h'
        have hne : place ≠ [] := fun hnil => h ⟨rfl, hnil ▸ List.nil_prefix⟩
        rw [if_neg hne]
        cases hg : j.get? k with
        | none => rfl
        | some v => exact ih (hj.get? hg) (fun hp => h ⟨rfl, hp⟩) (fun hp => h' ⟨rfl, hp⟩)
      · rfl

/-! ## Patches that are silent about a place -/

/-- A patch that is silent about a place commutes with taking that place out. -/
theorem without_merge {j v : Json} (hj : j.WellFormed) (hv : v.WellFormed) {names : List String}
    (hn : names ≠ []) (h : v.at? names = none) :
    (j.merge v).without (names.map .field) = (j.without (names.map .field)).merge v := by
  induction names generalizing j v with
  | nil => exact absurd rfl hn
  | cons k names ih =>
    cases hobj : v.isObject with
    | false =>
      rw [merge_of_not_isObject _ hobj, merge_of_not_isObject _ hobj,
        without_of_not_isObject hobj]
    | true =>
      -- Two objects with the same members under each key
      obtain ⟨changes, rfl⟩ := isObject_iff.1 hobj
      have hjw := hj.without (k :: names)
      refine ((hj.merge hv).without (k :: names)).ext (hjw.merge hv)
        (isObject_without (hj.merge hv) _) rfl fun k' => ?_
      rw [get?_without (hj.merge hv), get?_merge hj hv.sorted, get?_merge hj hv.sorted,
        get?_merge hjw hv.sorted, get?_without hj]
      by_cases hk : k' = k
      · subst hk
        rw [if_pos rfl, if_pos rfl]
        rw [at?_cons, get?_obj] at h
        by_cases hnil : names = []
        · subst hnil
          cases hc : Entries.get? changes k' with
          | none => rfl
          | some v => rw [hc] at h; cases h
        · rw [if_neg hnil, if_neg hnil]
          cases hc : Entries.get? changes k' with
          | none => rfl
          | some w =>
            -- A member that is removed has nothing below it; else the places below it are merged
            by_cases hnull : w = .null
            · subst hnull; rfl
            · rw [hc] at h
              rw [mergeMember_some _ hnull, mergeMember_some _ hnull]
              cases hg : j.get? k' with
              | none =>
                have hnone := ih (show Json.null.WellFormed from trivial) (hv.member hc) hnil h
                rw [without_of_not_isObject (j := .null) rfl] at hnone
                exact congrArg some hnone
              | some o => exact congrArg some (ih (hj.get? hg) (hv.member hc) hnil h)
      · rw [if_neg hk, if_neg hk]

/-- What neither side has at a place, the patch between them is silent about. -/
theorem at?_difference {present desired : Entries String Json}
    (hd : (Json.obj desired).WellFormed) {names : List String}
    (hp : (Json.obj present).at? names = none) (hn : (Json.obj desired).at? names = none) :
    (Json.obj (difference present desired)).at? names = none := by
  induction names generalizing present desired with
  | nil => cases hp
  | cons k names ih =>
    rw [at?_cons, get?_obj] at hp hn ⊢
    rw [get?_difference present hd.sorted]
    cases hm : Entries.get? desired k with
    | none =>
      -- The member is to go: then there is a `null` in the patch, and nothing below it
      cases ho : Entries.get? present k with
      | none => rfl
      | some o =>
        cases names with
        | nil => rw [ho] at hp; cases hp
        | cons l names => rfl
    | some v =>
      have hv := hd.member hm
      rw [hm] at hn
      rw [changeMember_some]
      cases hc : change (Entries.get? present k) v with
      | none => rfl
      | some p =>
        -- Either the desired member as a whole, or a patch between two objects
        rcases change_eq_some hc with rfl | ⟨os, ms, ho, rfl, rfl⟩
        · exact hn
        · rw [ho] at hp
          exact ih hv hp hn

end Json

end BuilderControl
