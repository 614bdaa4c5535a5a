import BuilderControl.Proofs.Leaves
import BuilderControl.Proofs.TextBytes

/-!
# The leaves of a document in order

Leaves are listed in the order in which the members of objects are, so a list of leaves is in
dictionary order.  No leaf is above another one, and an object is known by its leaves and what they
hold.

## Key results

- `Json.pairwise_leavesAt`: leaves are listed in dictionary order
- `Json.eq_of_leaf_prefix`: no leaf is above another one
- `Json.KnownByMembers`: what makes an object known by its leaves
- `Json.leaves_exact`: the list of leaves
-/

namespace BuilderControl

/-- The bytes of the names on a path of fields. -/
def Path.nameBytes (path : Path) : List (List UInt8) :=
  path.filterMap fun step => step.field?.map Text.bytes

namespace Json

/-! ## Dictionary order -/

/-- What is below a member comes before what is below one with a later key. -/
private theorem nameBytes_lt {place : Path} {k l : String} (h : k < l) (p q : Path) :
    Path.nameBytes (place ++ [.field k] ++ p) < Path.nameBytes (place ++ [.field l] ++ q) := by
  simp only [Path.nameBytes, List.filterMap_append, List.append_assoc]
  refine List.append_left_lt ?_
  exact List.cons_lt_cons_iff.2 (Or.inl (Text.bytes_lt_bytes h))

/-- Members whose own leaves are listed in order are listed in order one after the other. -/
private theorem pairwise_leavesOfMembers {place : Path} {ms : List (String × Json)}
    (hs : Entries.Sorted ms) (hv : ∀ m ∈ ms, m.2.WellFormed ∧
      (leavesAt (place ++ [.field m.1]) m.2).Pairwise fun p q => p.nameBytes < q.nameBytes) :
    (leavesOfMembers place ms).Pairwise fun p q => p.nameBytes < q.nameBytes := by
  induction ms with
  | nil => exact List.Pairwise.nil
  | cons m ms ih =>
    obtain ⟨k, v⟩ := m
    obtain ⟨hk, hs⟩ := Entries.sorted_cons.1 hs
    obtain ⟨⟨hwf, hfirst⟩, hrest⟩ := List.forall_mem_cons.1 hv
    refine List.pairwise_append.2 ⟨hfirst, ih hs hrest, fun p hp q hq => ?_⟩
    -- What is below the first member comes before what is below a later one
    obtain ⟨l, w, hm, hq⟩ := mem_leavesOfMembers.1 hq
    obtain ⟨-, names, rfl, -⟩ := (mem_leavesAt hwf).1 hp
    obtain ⟨-, names', rfl, -⟩ := (mem_leavesAt (hrest _ hm).1).1 hq
    exact nameBytes_lt (hk _ hm) _ _

/-- Leaves are listed in dictionary order. -/
theorem pairwise_leavesAt {j : Json} (hj : j.WellFormed) (place : Path) :
    (leavesAt place j).Pairwise fun p q => p.nameBytes < q.nameBytes := by
  -- A leaf lists one place, or none at the root
  have hleaf : ∀ place : Path, (if place.isEmpty then [] else [place]).Pairwise
      fun p q => Path.nameBytes p < Path.nameBytes q := fun place => by
    split
    · exact List.Pairwise.nil
    · exact List.pairwise_singleton _ place
  induction j using byMembers generalizing place with
  | obj ms ih =>
    cases ms with
    | nil => exact hleaf place
    | cons m ms =>
      refine pairwise_leavesOfMembers hj.sorted fun e he => ?_
      have hg := hj.sorted.get?_of_mem (k := e.1) (v := e.2) he
      exact ⟨hj.member hg, ih e.1 e.2 hg (hj.member hg) _⟩
  | _ => exact hleaf place

/-! ## Leaves below each other -/

/-- Leaves below a value are the value's own. -/
theorem hasLeaf_append {j v : Json} {names names' : List String} (h : j.at? names = some v) :
    j.HasLeaf (names ++ names') ↔ v.HasLeaf names' := by
  induction names generalizing j with
  | nil => cases h; rfl
  | cons k names ih =>
    obtain ⟨w, hw, h⟩ := Option.bind_eq_some_iff.1 h
    rw [List.cons_append, hasLeaf_cons, hw]
    simp [ih h]

/-- No leaf is above another one. -/
theorem eq_of_leaf_prefix {j : Json} (hj : j.WellFormed) {p q : Path} (hp : p ∈ j.leaves)
    (hq : q ∈ j.leaves) (h : p <+: q) : p = q := by
  obtain ⟨names, -, rfl, v, hv, hleaf⟩ := (mem_leaves_iff hj).1 hp
  obtain ⟨names', -, rfl, hleaf'⟩ := (mem_leaves_iff hj).1 hq
  obtain ⟨rest, hrest⟩ := h
  obtain ⟨above, below, rfl, habove, -⟩ := List.map_eq_append_iff.1 hrest.symm
  obtain rfl : above = names := List.map_inj_right (fun _ _ => Step.field.inj) |>.1 habove
  -- There is nothing below a leaf
  obtain rfl := (hasLeaf_iff_of_isLeaf hleaf).1 ((hasLeaf_append hv).1 hleaf')
  rw [List.append_nil]

/-- No leaves are listed of a document that is a leaf itself. -/
theorem leaves_eq_nil_iff {j : Json} (hj : j.WellFormed) :
    j.leaves = [] ↔ j.isLeaf = true := by
  rw [List.eq_nil_iff_forall_not_mem, ← hasLeaf_nil]
  constructor
  · intro h
    obtain ⟨names, hleaf⟩ := exists_hasLeaf j
    cases names with
    | nil => exact hleaf
    | cons k names =>
      exact absurd ((mem_leaves_iff hj).2 ⟨_, List.cons_ne_nil k names, rfl, hleaf⟩) (h _)
  · intro h path hpath
    obtain ⟨names, hne, rfl, hleaf⟩ := (mem_leaves_iff hj).1 hpath
    exact hne ((hasLeaf_iff_of_isLeaf (hasLeaf_nil.1 h)).1 hleaf)

/-- Leaves are what is no object, and the empty object. -/
theorem isLeaf_iff {j : Json} : j.isLeaf = true ↔ j.isObject = false ∨ j = .obj [] := by
  cases j with
  | obj ms => cases ms <;> simp [isLeaf, isObject]
  | _ => simp [isLeaf, isObject]

/-! ## Documents known by their leaves -/

/-- A leaf is known by what is at the root. -/
private theorem map_eq_of_isLeaf {f : Json → Json} {a b : Json}
    (hv : ∀ names, a.HasLeaf names → (a.at? names).map f = (b.at? names).map f)
    (h : a.isLeaf = true) : f a = f b :=
  Option.some.inj (hv [] (hasLeaf_nil.2 h))

/-- Objects are known by what `f` makes of their members. -/
def KnownByMembers (f : Json → Json) : Prop :=
  ∀ {a b : Json}, a.WellFormed → b.WellFormed → a.isObject = true → b.isObject = true →
    (∀ k, (a.get? k).map f = (b.get? k).map f) → f a = f b

/-- Then documents are known by what `f` makes of their leaves. -/
private theorem map_eq_of_hasLeaf {f : Json → Json} (hf : KnownByMembers f) {a b : Json}
    (ha : a.WellFormed) (hb : b.WellFormed) (h : ∀ names, a.HasLeaf names ↔ b.HasLeaf names)
    (hv : ∀ names, a.HasLeaf names → (a.at? names).map f = (b.at? names).map f) : f a = f b := by
  induction a using byMembers generalizing b with
  | obj ms ih =>
    cases ms with
    | nil => exact map_eq_of_isLeaf hv rfl
    | cons m ms =>
      -- The other document is no leaf either, so it is an object
      have hbo : b.isObject = true := by
        cases hbo : b.isObject with
        | true => rfl
        | false => cases hasLeaf_nil.1 ((h []).2 (hasLeaf_nil.2 (isLeaf_of_not_isObject hbo)))
      refine hf ha hb rfl hbo fun k => ?_
      -- A member that one of them has has a leaf, so the other one has it too
      cases hx : (Json.obj (m :: ms)).get? k with
      | none =>
        cases hy : b.get? k with
        | none => rfl
        | some y =>
          obtain ⟨names, hnames⟩ := exists_hasLeaf y
          obtain ⟨x, hx', -⟩ := hasLeaf_cons.1 ((h _).2 (hasLeaf_cons.2 ⟨y, hy, hnames⟩))
          rw [hx] at hx'
          cases hx'
      | some x =>
        obtain ⟨names, hnames⟩ := exists_hasLeaf x
        obtain ⟨y, hy, -⟩ := hasLeaf_cons.1 ((h _).1 (hasLeaf_cons.2 ⟨x, hx, hnames⟩))
        have hxleaf : ∀ names, (Json.obj (m :: ms)).HasLeaf (k :: names) ↔ x.HasLeaf names :=
          fun names => by simp [hasLeaf_cons, hx]
        have hyleaf : ∀ names, b.HasLeaf (k :: names) ↔ y.HasLeaf names :=
          fun names => by simp [hasLeaf_cons, hy]
        have hnext : ∀ names, x.HasLeaf names → (x.at? names).map f = (y.at? names).map f := by
          intro names hnames
          have hat := hv (k :: names) ((hxleaf names).2 hnames)
          simpa only [at?_cons, hx, hy, Option.bind_some] using hat
        rw [hy]
        -- Below the member, both have the same leaves, and the same at them
        refine congrArg some (ih k x hx (ha.member hx) (hb.get? hy) (fun names => ?_) hnext)
        rw [← hxleaf, ← hyleaf, h]
  | _ => exact map_eq_of_isLeaf hv rfl

/-- Objects with the same list of leaves have the same leaves, also at the root. -/
private theorem hasLeaf_iff_of_leaves {a b : Json} (ha : a.WellFormed) (hb : b.WellFormed)
    (h : ∀ path, path ∈ a.leaves ↔ path ∈ b.leaves) (names : List String) :
    a.HasLeaf names ↔ b.HasLeaf names := by
  cases names with
  | nil =>
    rw [hasLeaf_nil, hasLeaf_nil, ← leaves_eq_nil_iff ha, ← leaves_eq_nil_iff hb,
      List.eq_nil_iff_forall_not_mem, List.eq_nil_iff_forall_not_mem]
    simp only [h]
  | cons k names =>
    have hmem : ∀ {j : Json}, j.WellFormed →
        (((k :: names).map .field ∈ j.leaves) ↔ j.HasLeaf (k :: names)) := by
      intro j hj
      rw [mem_leaves_iff hj]
      constructor
      · rintro ⟨names', -, hnames, hleaf⟩
        rwa [(List.map_inj_right fun _ _ => Step.field.inj).1 hnames]
      · exact fun hleaf => ⟨_, List.cons_ne_nil k names, rfl, hleaf⟩
    rw [← hmem ha, ← hmem hb, h]

/-- Objects with the same list of leaves, and with the same at them, are the same to `f`. -/
private theorem map_eq_of_leaves {f : Json → Json} (hf : KnownByMembers f) {a b : Json}
    (ha : a.WellFormed) (hb : b.WellFormed) (hao : a.isObject = true) (hbo : b.isObject = true)
    (h : ∀ path, path ∈ a.leaves ↔ path ∈ b.leaves)
    (hv : ∀ path ∈ a.leaves, ∀ v w, a.lookup path = .ok v → b.lookup path = .ok w → f v = f w) :
    f a = f b := by
  have hleaves := hasLeaf_iff_of_leaves ha hb h
  refine map_eq_of_hasLeaf hf ha hb hleaves fun names hnames => ?_
  obtain ⟨v, hva, -⟩ := id hnames
  obtain ⟨w, hwb, -⟩ := (hleaves names).1 hnames
  cases names with
  | nil =>
    -- The root is not listed, but of objects only the empty one is a leaf
    have hempty : ∀ {j : Json}, j.isObject = true → j.HasLeaf [] → j = .obj [] := fun ho hj =>
      (isLeaf_iff.1 (hasLeaf_nil.1 hj)).resolve_left (by simp [ho])
    rw [hempty hao hnames, hempty hbo ((hleaves []).1 hnames)]
  | cons k names =>
    have hpath := (mem_leaves_iff ha).2 ⟨_, List.cons_ne_nil k names, rfl, hnames⟩
    rw [hva, hwb, Option.map_some, Option.map_some,
      hv _ hpath v w (lookup_fields.2 hva) (lookup_fields.2 hwb)]

/-! ## The list of leaves -/

/-- A path of fields is made of their names. -/
private theorem exists_names {path : Path} (h : ∀ step ∈ path, ∃ name, step = .field name) :
    ∃ names : List String, path = names.map .field := by
  induction path with
  | nil => exact ⟨[], rfl⟩
  | cons step path ih =>
    obtain ⟨⟨name, rfl⟩, hpath⟩ := List.forall_mem_cons.1 h
    obtain ⟨names, rfl⟩ := ih hpath
    exact ⟨name :: names, rfl⟩

/-- What is listed are the leaves of a document: each of them once, in dictionary order, and none of
them above another one. -/
structure ListsLeaves (j : Json) (paths : List Path) : Prop where
  mem_iff : ∀ path, path ∈ paths ↔ path ≠ [] ∧ (∀ step ∈ path, ∃ name, step = .field name) ∧
    ∃ v, j.lookup path = .ok v ∧ v.isLeaf = true
  nodup : paths.Nodup
  increasing : paths.Pairwise fun p q => p.nameBytes < q.nameBytes
  apart : ∀ p ∈ paths, ∀ q ∈ paths, p <+: q → p = q
  nil_iff : paths = [] ↔ j.isObject = false ∨ j = .obj []

/-- The leaves of a document are listed, and an object is known by them: with the same values at the
same leaves it is the same, and with values that are the same but for signs of zeros it is the same
but for signs of zeros. -/
theorem leaves_exact {j : Json} (hj : j.WellFormed) :
    ListsLeaves j j.leaves ∧
    ∀ other : Json, other.WellFormed → j.isObject = true → other.isObject = true →
      (∀ path, path ∈ j.leaves ↔ path ∈ other.leaves) →
      ((∀ path ∈ j.leaves, j.lookup path = other.lookup path) → j = other) ∧
      ((∀ path ∈ j.leaves, ∀ v w, j.lookup path = .ok v → other.lookup path = .ok w →
        v.same w = true) → j.same other = true) := by
  refine ⟨⟨fun path => ?_, ?_, pairwise_leavesAt hj [], fun p hp q hq => eq_of_leaf_prefix hj hp hq,
    (leaves_eq_nil_iff hj).trans isLeaf_iff⟩, fun other ho hjo hoo h => ⟨fun hv => ?_, fun hv => ?_⟩⟩
  · rw [mem_leaves_iff hj]
    -- A listed path consists of names, and so does every path of fields
    constructor
    · rintro ⟨names, hne, rfl, v, hv, hleaf⟩
      exact ⟨by simpa using hne, by simp, v, lookup_fields.2 hv, hleaf⟩
    · rintro ⟨hne, hfields, v, hv, hleaf⟩
      obtain ⟨names, rfl⟩ := exists_names hfields
      exact ⟨names, by simpa using hne, rfl, v, lookup_fields.1 hv, hleaf⟩
  · -- What is strictly increasing has nothing twice
    refine (pairwise_leavesAt hj []).imp ?_
    rintro p q hlt rfl
    exact List.lt_irrefl _ hlt
  · -- Equality is what is kept of a document as a whole
    refine map_eq_of_leaves (f := id) ?_ hj ho hjo hoo h fun path hpath v w hv' hw' => ?_
    · intro a b ha hb hao hbo hmembers
      exact ha.ext hb hao hbo fun k => by simpa using hmembers k
    · rw [hv path hpath, hw'] at hv'
      exact (Except.ok.inj hv').symm
  · -- Documents are the same but for signs of zeros if their canonical forms are equal
    refine same_iff.2 (map_eq_of_leaves WellFormed.canon_eq hj ho hjo hoo h ?_)
    exact fun path hpath v w hv' hw' => same_iff.1 (hv path hpath v w hv' hw')

/-- Two documents that differ in the sign of a zero have the same leaves. -/
theorem leaves_exact_signed_zero :
    let doc (zero : UInt64) : Json := .obj [("metadata", .obj [("labels", .null)]),
      ("spec", .obj [("limit", .num (.float zero)), ("stack", .obj [])])]
    (doc 0).WellFormed ∧ (doc 0x8000000000000000).WellFormed ∧
      ListsLeaves (doc 0) [[.field "metadata", .field "labels"], [.field "spec", .field "limit"],
        [.field "spec", .field "stack"]] ∧
      doc 0 ≠ doc 0x8000000000000000 ∧ (doc 0).same (doc 0x8000000000000000) = true := by
  intro doc
  have hj : (doc 0).WellFormed := by decide
  have ho : (doc 0x8000000000000000).WellFormed := by decide
  obtain ⟨hlists, hknown⟩ := leaves_exact hj
  refine ⟨hj, ho, hlists, by decide, (hknown _ ho rfl rfl fun path => Iff.rfl).2 ?_⟩
  intro path hpath v w hv hw
  have hpath : path ∈ [[.field "metadata", .field "labels"], [.field "spec", .field "limit"],
      [.field "spec", .field "stack"]] := hpath
  simp only [List.mem_cons, List.not_mem_nil, or_false] at hpath
  rcases hpath with rfl | rfl | rfl
  all_goals
    cases hv
    cases hw
    decide

end Json

end BuilderControl
