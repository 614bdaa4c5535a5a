import BuilderControl.Path.Leaves
import BuilderControl.Proofs.Document

/-!
# Leaves of documents

A walk down the members of a document lists the places at which it ends.  Which places these are is
said by looking them up, and every value has one below it.

## Key results

- `Json.mem_leaves_iff`: the leaves are the places of fields with anything but an object that has
  members
- `Json.exists_hasLeaf`: there is a leaf in every value
- `Json.has_fields`: a place of fields resolves if there is a value at it
-/

namespace BuilderControl

namespace Json

/-- Anything but an object that has members. -/
def isLeaf : Json → Bool
  | .obj (_ :: _) => false
  | _ => true

/-- The names lead to a leaf, which may be the document itself. -/
def HasLeaf (j : Json) (names : List String) : Prop :=
  ∃ v, j.at? names = some v ∧ v.isLeaf = true

/-- What is no object is a leaf. -/
theorem isLeaf_of_not_isObject {j : Json} (h : j.isObject = false) : j.isLeaf = true := by
  cases j <;> first | rfl | cases h

/-- The document itself is a leaf, or not. -/
theorem hasLeaf_nil {j : Json} : j.HasLeaf [] ↔ j.isLeaf = true := by simp [HasLeaf]

/-- A leaf below a member is one of the member's own. -/
theorem hasLeaf_cons {j : Json} {k : String} {names : List String} :
    j.HasLeaf (k :: names) ↔ ∃ v, j.get? k = some v ∧ v.HasLeaf names := by
  simp only [HasLeaf, at?_cons, Option.bind_eq_some_iff]
  constructor
  · rintro ⟨x, ⟨v, hv, hx⟩, hleaf⟩
    exact ⟨v, hv, x, hx, hleaf⟩
  · rintro ⟨v, hv, x, hx, hleaf⟩
    exact ⟨x, ⟨v, hv, hx⟩, hleaf⟩

/-- A leaf has no leaf but itself. -/
theorem hasLeaf_iff_of_isLeaf {j : Json} (h : j.isLeaf = true) {names : List String} :
    j.HasLeaf names ↔ names = [] := by
  cases names with
  | nil => simp [hasLeaf_nil, h]
  | cons k names =>
    have hnone : j.get? k = none := by
      cases j with
      | obj ms => cases ms <;> first | rfl | cases h
      | _ => rfl
    simp [hasLeaf_cons, hnone]

/-- There is a leaf in every value. -/
theorem exists_hasLeaf (j : Json) : ∃ names, j.HasLeaf names := by
  induction j using byMembers with
  | obj ms ih =>
    cases ms with
    | nil => exact ⟨[], hasLeaf_nil.2 rfl⟩
    | cons m ms =>
      -- Go into the first member
      have hfirst : Entries.get? (m :: ms) m.1 = some m.2 := by simp [Entries.get?_cons]
      obtain ⟨names, hleaf⟩ := ih m.1 m.2 hfirst
      exact ⟨m.1 :: names, hasLeaf_cons.2 ⟨m.2, hfirst, hleaf⟩⟩
  | _ => exact ⟨[], hasLeaf_nil.2 rfl⟩

/-- A place of fields resolves if there is a value at it. -/
theorem has_fields {j : Json} {names : List String} :
    j.has (names.map .field) = true ↔ ∃ v, j.at? names = some v := by
  simp only [← lookup_fields, has]
  cases j.lookup (names.map .field) <;> simp [Except.isOk, Except.toBool]

/-- A place of fields does not resolve if there is no value at it. -/
theorem has_fields_eq_false {j : Json} {names : List String} (h : j.at? names = none) :
    j.has (names.map .field) = false := by
  rw [← Bool.not_eq_true, has_fields]
  rintro ⟨v, hv⟩
  rw [h] at hv
  cases hv

/-! ## The walk -/

/-- A walk that starts at a leaf lists this leaf, unless it is the root. -/
theorem mem_leavesAt_of_isLeaf {j : Json} (h : j.isLeaf = true) {place path : Path} :
    path ∈ leavesAt place j ↔
      path ≠ [] ∧ ∃ names, path = place ++ names.map .field ∧ j.HasLeaf names := by
  have hlist : leavesAt place j = if place.isEmpty then [] else [place] := by
    cases j with
    | obj ms => cases ms <;> first | rfl | cases h
    | _ => rfl
  have hself : (∃ names : List String, path = place ++ names.map .field ∧ j.HasLeaf names) ↔
      path = place := by
    simp [hasLeaf_iff_of_isLeaf h]
  rw [hlist, hself]
  -- The root is the only place without a step
  cases place with
  | nil => simp
  | cons step place =>
    simp only [List.isEmpty_cons, Bool.false_eq_true, if_false, List.mem_singleton]
    exact ⟨fun hpath => ⟨hpath ▸ List.cons_ne_nil _ _, hpath⟩, And.right⟩

/-- A walk through members lists what walks that start at each of them do. -/
theorem mem_leavesOfMembers {place path : Path} {ms : List (String × Json)} :
    path ∈ leavesOfMembers place ms ↔
      ∃ k v, (k, v) ∈ ms ∧ path ∈ leavesAt (place ++ [.field k]) v := by
  induction ms with
  | nil => simp [leavesOfMembers]
  | cons m ms ih =>
    obtain ⟨k, v⟩ := m
    simp only [leavesOfMembers, List.mem_append, ih, List.mem_cons, Prod.mk.injEq]
    constructor
    · rintro (h | ⟨l, w, hm, h⟩)
      · exact ⟨k, v, Or.inl ⟨rfl, rfl⟩, h⟩
      · exact ⟨l, w, Or.inr hm, h⟩
    · rintro ⟨l, w, ⟨rfl, rfl⟩ | hm, h⟩
      · exact Or.inl h
      · exact Or.inr ⟨l, w, hm, h⟩

/-- A walk that starts at a place lists the leaves below it, but never the root. -/
theorem mem_leavesAt {j : Json} (hj : j.WellFormed) {place path : Path} :
    path ∈ leavesAt place j ↔
      path ≠ [] ∧ ∃ names, path = place ++ names.map .field ∧ j.HasLeaf names := by
  induction j using byMembers generalizing place with
  | obj ms ih =>
    cases ms with
    -- An empty object is a leaf
    | nil => exact mem_leavesAt_of_isLeaf rfl
    | cons m ms =>
      -- In key order, the members that are walked through are those that are found
      refine mem_leavesOfMembers.trans ⟨?_, ?_⟩
      · rintro ⟨k, v, hm, h⟩
        have hg := hj.sorted.get?_of_mem hm
        obtain ⟨hne, names, rfl, hleaf⟩ := (ih k v hg (hj.member hg)).1 h
        exact ⟨hne, k :: names, by simp, hasLeaf_cons.2 ⟨v, hg, hleaf⟩⟩
      · rintro ⟨hne, names, rfl, hleaf⟩
        cases names with
        | nil => cases hasLeaf_nil.1 hleaf
        | cons k names =>
          obtain ⟨v, hg, hleaf⟩ := hasLeaf_cons.1 hleaf
          exact ⟨k, v, Entries.mem_of_get? hg,
            (ih k v hg (hj.member hg)).2 ⟨hne, names, by simp, hleaf⟩⟩
  | _ => exact mem_leavesAt_of_isLeaf rfl

/-- Leaves are the places of fields that hold anything but an object with members. -/
theorem mem_leaves_iff {j : Json} (hj : j.WellFormed) {path : Path} :
    path ∈ j.leaves ↔ ∃ names, names ≠ [] ∧ path = names.map .field ∧ j.HasLeaf names := by
  rw [leaves, mem_leavesAt hj]
  constructor
  · rintro ⟨hne, names, rfl, hleaf⟩
    exact ⟨names, by simpa using hne, rfl, hleaf⟩
  · rintro ⟨names, hne, rfl, hleaf⟩
    exact ⟨by simpa using hne, names, rfl, hleaf⟩

end Json

end BuilderControl
