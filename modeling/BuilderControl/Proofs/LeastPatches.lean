import BuilderControl.Proofs.Comparison
import BuilderControl.Proofs.Leaves

/-!
# The least patch

A computed patch ends only where the observed and the desired document differ, and every patch that
leads from the one to the other has to say something there.  Both are shown by going down to the
place: a patch that has members stands where an object is desired, and each of its members is what
the comparison says about the members below.

## Key results

- `changeMember_get?`: a member of a change is the change of the members below
- `leafAgainst_of_changeMember`: what a change has at a leaf, against both documents
- `exists_at?_of_mergeMember`: what every patch to a desired document has to name
- `diff_leastPatch`: a computed patch is the least one
-/

namespace BuilderControl

namespace Json

/-! ## Going down into a change -/

/-- No field leads to the value itself, or to none if there is none. -/
theorem bind_at?_nil (observed : Option Json) : observed.bind (·.at? []) = observed := by
  cases observed <;> rfl

/-- One field leads to a member of a value that may be absent. -/
theorem bind_at?_singleton (observed : Option Json) (k : String) :
    observed.bind (·.at? [k]) = observed.bind (·.get? k) := by
  cases observed with
  | none => rfl
  | some o => exact bind_at?_nil (o.get? k)

/-- What is found below a member of a value that may be absent. -/
theorem bind_at?_cons (observed : Option Json) (k : String) (names : List String) :
    observed.bind (·.at? (k :: names)) = ((observed.getD .null).get? k).bind (·.at? names) := by
  cases observed <;> rfl

/-- A change that has a member stands where an object is desired, and the member is the change of
the members below.  A `null` member is excluded: an object that is taken as a whole keeps it, though
there is nothing to remove. -/
theorem changeMember_get? {observed desired : Option Json} {p v : Json} {k : String}
    (hd : ∀ d, desired = some d → d.WellFormed)
    (hf : desired.bind (·.get? k) ≠ some .null)
    (h : changeMember observed desired = some p) (hv : p.get? k = some v) :
    ∃ ms, desired = some (.obj ms) ∧
      changeMember ((observed.getD .null).get? k) (Entries.get? ms k) = some v := by
  have hobj := isObject_of_get? hv
  cases desired with
  | none =>
    -- A removal has no members
    obtain ⟨_, _, rfl⟩ := Option.map_eq_some_iff.1 h
    cases hv
  | some d =>
    -- Anything but an object is taken as it is
    obtain ⟨ms, rfl⟩ : ∃ ms, d = .obj ms := by
      rcases change_eq_some h with rfl | ⟨_, ms, _, rfl, _⟩
      · exact isObject_iff.1 hobj
      · exact ⟨ms, rfl⟩
    refine ⟨ms, rfl, ?_⟩
    rw [changeMember_some] at h
    rcases all_not_isObject_or observed with hno | ⟨present, rfl⟩
    · -- An object is taken as a whole, and nothing is observed below
      have hnone : (observed.getD .null).get? k = none := by
        rw [Json.get?, members_getD_of_not_isObject hno, Entries.get?_nil]
      rw [change_obj_of_not_isObject hno] at h
      cases h
      have hnull : v ≠ .null := by rintro rfl; exact hf hv
      rw [get?_obj] at hv
      rw [hnone, hv, changeMember_some, change_none hnull]
    · rw [change_obj_obj] at h
      split at h
      · cases h
      · cases h
        rw [get?_obj, get?_difference present (hd _ rfl).sorted] at hv
        exact hv

/-- Only what differs is changed. -/
theorem map_canon_ne_of_changeMember {observed desired : Option Json} {p : Json}
    (hd : ∀ d, desired = some d → d.WellFormed) (h : changeMember observed desired = some p) :
    observed.map canon ≠ desired.map canon := by
  intro heq
  cases desired with
  | none => rw [Option.map_none, Option.map_eq_none_iff] at heq; subst heq; cases h
  | some d =>
    obtain ⟨o, rfl, ho⟩ := Option.map_eq_some_iff.1 heq
    rw [changeMember_some, change_eq_none_of_canon_eq (hd d rfl) ho] at h
    cases h

/-! ## Leaves of a change -/

/-- What a change has at a leaf: a `null` that removes what is not desired, or a desired value that
is not there yet. -/
def LeafAgainst (observed desired : Option Json) (v : Json) : Prop :=
  (v = .null ∧ desired = none ∧ observed.isSome = true) ∨
    (v ≠ .null ∧ desired = some v ∧ ∀ x, observed = some x → x.canon ≠ v.canon)

/-- At its leaves, a change removes what is not desired or sets a desired value that is not there
yet. -/
theorem leafAgainst_of_changeMember {names : List String} {observed desired : Option Json} {p v : Json}
    (hd : ∀ d, desired = some d → d.WellFormed)
    (hf : ∀ names, desired.bind (·.at? names) ≠ some .null)
    (h : changeMember observed desired = some p) (hv : p.at? names = some v)
    (hleaf : v.isLeaf = true) :
    LeafAgainst (observed.bind (·.at? names)) (desired.bind (·.at? names)) v := by
  -- By induction on the way down to the leaf, with whatever stands on both sides there
  induction names generalizing observed desired p with
  | nil =>
    cases hv
    rw [bind_at?_nil, bind_at?_nil]
    have hne := map_canon_ne_of_changeMember hd h
    cases desired with
    | none =>
      obtain ⟨o, rfl, rfl⟩ := Option.map_eq_some_iff.1 h
      exact Or.inl ⟨rfl, rfl, rfl⟩
    | some d =>
      -- The patch between two objects has members, so it is no leaf
      have hpd : v = d := by
        rcases change_eq_some h with rfl | ⟨present, ms, rfl, rfl, rfl⟩
        · rfl
        · rw [changeMember_some, change_obj_obj] at h
          split at h
          · cases h
          · rename_i hcons
            obtain ⟨m, rest, hms⟩ := List.exists_cons_of_ne_nil hcons
            rw [hms] at hleaf
            cases hleaf
      subst hpd
      refine Or.inr ⟨fun hnull => hf [] (congrArg some hnull), rfl, ?_⟩
      rintro x rfl hx
      exact hne (congrArg some hx)
  | cons k names ih =>
    rw [at?_cons] at hv
    obtain ⟨w, hw, hv⟩ := Option.bind_eq_some_iff.1 hv
    have hk : desired.bind (·.get? k) ≠ some .null := bind_at?_singleton desired k ▸ hf [k]
    obtain ⟨ms, rfl, hbelow⟩ := changeMember_get? hd hk h hw
    rw [bind_at?_cons observed, bind_at?_cons (some _)]
    exact ih (fun d hg => (hd _ rfl).get? hg) (fun names => hf (k :: names)) hbelow hv

/-- A patch that reaches what is desired has something at every leaf of the change. -/
theorem exists_at?_of_mergeMember {names : List String} {observed desired said : Option Json}
    {p : Json} (ho : ∀ o, observed = some o → o.WellFormed)
    (hd : ∀ d, desired = some d → d.WellFormed) (hs : ∀ q, said = some q → q.WellFormed)
    (hf : ∀ names, desired.bind (·.at? names) ≠ some .null)
    (h : changeMember observed desired = some p) (hp : p.HasLeaf names)
    (hreach : (mergeMember observed said).map canon = desired.map canon) :
    ∃ w, said.bind (·.at? names) = some w := by
  -- A patch that is silent leaves what is observed, which is not what is desired
  have hsaid : ∃ q, said = some q := by
    cases said with
    | none => exact absurd hreach (map_canon_ne_of_changeMember hd h)
    | some q => exact ⟨q, rfl⟩
  obtain ⟨q, rfl⟩ := hsaid
  induction names generalizing observed desired p q with
  | nil => exact ⟨q, rfl⟩
  | cons k names ih =>
    obtain ⟨v, hv, hp⟩ := hasLeaf_cons.1 hp
    have hk : desired.bind (·.get? k) ≠ some .null := bind_at?_singleton desired k ▸ hf [k]
    obtain ⟨ms, rfl, hbelow⟩ := changeMember_get? hd hk h hv
    -- An object is desired here, and only an object leads to one
    have hobj : ∃ qs, q = .obj qs := by
      by_cases hnull : q = .null
      · subst hnull; cases hreach
      · rw [mergeMember_some _ hnull] at hreach
        have hmerged := isObject_of_canon_eq (Option.some.inj hreach)
        cases q <;> first | exact ⟨_, rfl⟩ | cases hmerged
    obtain ⟨qs, rfl⟩ := hobj
    have hq : (Json.obj qs).WellFormed := hs _ rfl
    have how : (observed.getD .null).WellFormed := WellFormed.getD ho
    -- So the members below are reached as well
    have hmember : (mergeMember ((observed.getD .null).get? k) (Entries.get? qs k)).map canon =
        (Entries.get? ms k).map canon := by
      rw [mergeMember_some _ (by simp)] at hreach
      rw [← get?_merge how hq.sorted]
      exact get?_of_canon_eq (Option.some.inj hreach) k
    cases hg : Entries.get? qs k with
    | none =>
      rw [hg] at hmember
      exact absurd hmember
        (map_canon_ne_of_changeMember (fun d hg => (hd _ rfl).member hg) hbelow)
    | some w =>
      rw [hg] at hmember
      obtain ⟨x, hx⟩ := ih (fun o hg => how.get? hg) (fun d hg => (hd _ rfl).member hg)
        (fun names => hf (k :: names)) hbelow hp w (by rintro _ ⟨⟩; exact hq.member hg) hmember
      exact ⟨x, by rw [bind_at?_cons, Option.getD_some, get?_obj, hg]; exact hx⟩

end Json

namespace Differ

open Json

/-- A patch that leads from an observed document to a desired one, ends only where they differ, and
names no place that any other such patch leaves out. -/
structure LeastPatch (observed desired : Json) (patch : MergePatch) : Prop where
  reaches : (patch.apply observed).same desired = true
  /-- What is removed is there, and is not desired. -/
  removes : ∀ path ∈ patch.changedPaths, patch.toJson.lookup path = .ok .null →
    observed.has path = true ∧ desired.has path = false
  /-- What is set is the desired value, and is not there yet. -/
  sets : ∀ path ∈ patch.changedPaths, patch.toJson.lookup path ≠ .ok .null →
    ∃ v, patch.toJson.lookup path = .ok v ∧ desired.lookup path = .ok v ∧
      ∀ x, observed.lookup path = .ok x → x.same v = false
  /-- Every patch that reaches the desired document has something at these places. -/
  needed : ∀ other : MergePatch, other.toJson.WellFormed →
    (other.apply observed).same desired = true →
    ∀ path ∈ patch.changedPaths, other.toJson.has path = true

section Objects

variable {observed desired : Entries String Json} (ho : (Json.obj observed).WellFormed)
  (hd : (Json.obj desired).WellFormed)
include hd

/-- Places that the patch between two objects reports start with a key whose members differ. -/
theorem exists_of_mem_changedPaths {path : Path}
    (h : path ∈ (MergePatch.mk (difference observed desired)).changedPaths) :
    ∃ k names p, path = (k :: names).map .field ∧ p.HasLeaf names ∧
      (Json.obj (difference observed desired)).get? k = some p ∧
      changeMember (Entries.get? observed k) (Entries.get? desired k) = some p := by
  obtain ⟨names, hne, rfl, hleaf⟩ := (mem_leaves_iff (WellFormed.difference hd)).1 h
  obtain ⟨k, names, rfl⟩ := List.exists_cons_of_ne_nil hne
  obtain ⟨p, hp, hleaf⟩ := hasLeaf_cons.1 hleaf
  refine ⟨k, names, p, rfl, hleaf, hp, ?_⟩
  rw [← get?_difference observed hd.sorted]
  exact hp

/-- A place that the patch between two objects reports is a leaf of it, and says what has to change.
-/
theorem exists_leafAgainst (hf : (Json.obj desired).NullFree) {path : Path}
    (h : path ∈ (MergePatch.mk (difference observed desired)).changedPaths) :
    ∃ names v, path = names.map .field ∧
      (Json.obj (difference observed desired)).at? names = some v ∧
      LeafAgainst ((Json.obj observed).at? names) ((Json.obj desired).at? names) v := by
  obtain ⟨k, names, p, rfl, ⟨v, hv, hleaf⟩, hp, hchange⟩ := exists_of_mem_changedPaths hd h
  refine ⟨k :: names, v, rfl, by rw [at?_cons, hp]; exact hv, ?_⟩
  exact leafAgainst_of_changeMember (fun d hg => hd.member hg)
    (fun names => hf.at? (List.cons_ne_nil k names)) hchange hv hleaf

include ho

/-- Every other patch that reaches the desired object has something at each place that the computed
one reports. -/
theorem has_of_mem_changedPaths (hf : (Json.obj desired).NullFree) {other : MergePatch}
    (hq : other.toJson.WellFormed) (hreach : (other.apply (.obj observed)).same (.obj desired))
    {path : Path} (h : path ∈ (MergePatch.mk (difference observed desired)).changedPaths) :
    other.toJson.has path = true := by
  obtain ⟨k, names, p, rfl, hleaf, hp, hchange⟩ := exists_of_mem_changedPaths hd h
  -- The other patch reaches each member, as it reaches the object
  have hmember : (mergeMember (Entries.get? observed k) (other.toJson.get? k)).map canon =
      (Entries.get? desired k).map canon := by
    rw [MergePatch.toJson, get?_obj, ← get?_obj observed, ← get?_merge ho hq.sorted]
    exact get?_of_canon_eq (same_iff.1 hreach) k
  exact has_fields.2 (exists_at?_of_mergeMember (fun o hg => ho.member hg)
    (fun d hg => hd.member hg) (fun q hg => hq.get? hg)
    (fun names => hf.at? (List.cons_ne_nil k names)) hchange hleaf hmember)

/-- With nothing left out, the patch between two objects is the least one, if the desired object
has no `null` members. -/
theorem diff_leastPatch (hf : (Json.obj desired).NullFree) :
    LeastPatch (.obj observed) (.obj desired)
      (Differ.diff ⟨[]⟩ (.obj observed) (.obj desired)) := by
  have hpatch : Differ.diff ⟨[]⟩ (.obj observed) (.obj desired) =
      ⟨difference observed desired⟩ := diff_of_strip rfl rfl
  rw [hpatch]
  refine ⟨?_, fun path hpath hnull => ?_, fun path hpath hnull => ?_, fun other hq hreach path =>
    has_of_mem_changedPaths ho hd hf hq hreach⟩
  · exact same_iff.2 (NullFree.canon_merge_difference ho hd hf)
  · obtain ⟨names, v, rfl, hv, hleaf⟩ := exists_leafAgainst hd hf hpath
    have hvn : v = .null := Option.some.inj (hv.symm.trans (lookup_fields.1 hnull))
    -- A `null` in the patch is a removal
    rcases hleaf with ⟨-, hgone, hthere⟩ | ⟨hne, -, -⟩
    · exact ⟨has_fields.2 (Option.isSome_iff_exists.1 hthere), has_fields_eq_false hgone⟩
    · exact absurd hvn hne
  · obtain ⟨names, v, rfl, hv, hleaf⟩ := exists_leafAgainst hd hf hpath
    -- Anything else is a desired value
    rcases hleaf with ⟨rfl, -, -⟩ | ⟨-, hwanted, hother⟩
    · exact absurd (lookup_fields.2 hv) hnull
    · refine ⟨v, lookup_fields.2 hv, lookup_fields.2 hwanted, fun x hx => ?_⟩
      exact decide_eq_false (hother x (lookup_fields.1 hx))

end Objects

/-- A member removed, one replaced by an object, an empty object made and a nested value set. -/
theorem diff_leastPatch_mixed :
    let observed : Entries String Json :=
      [("a", .num (.int 1)), ("b", .obj [("x", .null), ("y", .bool true)]), ("c", .str "old")]
    let desired : Entries String Json :=
      [("b", .obj [("y", .bool false)]), ("c", .obj [("n", .arr [.null])]), ("d", .obj [])]
    (Json.obj observed).WellFormed ∧ (Json.obj desired).WellFormed ∧
      (Json.obj desired).NullFree ∧
      LeastPatch (.obj observed) (.obj desired)
        (Differ.diff ⟨[]⟩ (.obj observed) (.obj desired)) := by
  intro observed desired
  have hf : (Json.obj desired).NullFree := (nullFree_iff (by decide)).2 (by decide)
  exact ⟨by decide, by decide, hf, diff_leastPatch (by decide) (by decide) hf⟩

end Differ

end BuilderControl
