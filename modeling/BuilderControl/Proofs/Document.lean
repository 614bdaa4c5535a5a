import BuilderControl.Path.Lookup
import BuilderControl.Proofs.Entries

/-!
# Laws of documents

An object is known by its members, so statements about documents are proved by induction on the
members that an object has under its keys.

## Key results

- `Json.byMembers`: induction over what stands under the keys of an object
- `wellFormed_obj`: well-formed objects by their members
- `canon_obj_eq`: objects are the same value when their members are
- `lookup_fields`: a path of fields is looked up one member at a time
-/

namespace BuilderControl

namespace Json

/-! ## Induction -/

/-- A member is smaller than its object. -/
theorem sizeOf_lt_of_get? {ms : Entries String Json} {k : String} {v : Json}
    (h : Entries.get? ms k = some v) : sizeOf v < sizeOf (Json.obj ms) := by
  have hmem := List.sizeOf_lt_of_mem (Entries.mem_of_get? h)
  simp only [Prod.mk.sizeOf_spec] at hmem
  simp only [obj.sizeOf_spec]
  omega

/-- Induction over documents: what holds of all members of an object holds of the object.  Arrays
are not looked into. -/
@[elab_as_elim]
theorem byMembers {motive : Json → Prop} (null : motive .null) (bool : ∀ b, motive (.bool b))
    (num : ∀ n, motive (.num n)) (str : ∀ s, motive (.str s)) (arr : ∀ xs, motive (.arr xs))
    (obj : ∀ ms : Entries String Json,
      (∀ k v, Entries.get? ms k = some v → motive v) → motive (.obj ms)) :
    ∀ j, motive j
  | .null => null
  | .bool b => bool b
  | .num n => num n
  | .str s => str s
  | .arr xs => arr xs
  | .obj ms => obj ms fun _ v _ => byMembers null bool num str arr obj v
termination_by j => sizeOf j
decreasing_by exact sizeOf_lt_of_get? ‹_›

/-! ## Looking at members -/

/-- The members of an object are those it was made of. -/
@[simp] theorem members_obj (ms : Entries String Json) : (Json.obj ms).members = ms := rfl

/-- A member of an object is looked up in its map. -/
@[simp] theorem get?_obj (ms : Entries String Json) (k : String) :
    (Json.obj ms).get? k = Entries.get? ms k := rfl

/-- Only objects have members. -/
theorem members_of_not_isObject {j : Json} (h : j.isObject = false) : j.members = [] := by
  cases j <;> first | rfl | cases h

/-- What has a member is an object. -/
theorem isObject_of_get? {j v : Json} {k : String} (h : j.get? k = some v) :
    j.isObject = true := by
  cases j <;> first | rfl | cases h

/-- Objects are made of a map. -/
theorem isObject_iff {j : Json} : j.isObject = true ↔ ∃ ms, j = .obj ms := by
  cases j <;> simp [isObject]

/-- There is one null. -/
theorem isNull_iff {j : Json} : j.isNull = true ↔ j = .null := by
  cases j <;> simp [isNull]

/-- After a member is set, it is found under its key, and all else as before. -/
theorem get?_set (j : Json) (k : String) (v : Json) (k' : String) :
    (j.set k v).get? k' = if k' = k then some v else j.get? k' :=
  Entries.get?_insert j.members k v k'

/-! ## Well-formed documents -/

mutual
def decidableWellFormed : (j : Json) → Decidable j.WellFormed
  | .arr xs => decidableWellFormedItems xs
  | .obj ms =>
    have := decidableWellFormedMembers ms
    inferInstanceAs (Decidable (List.Pairwise (fun a b => a.1 < b.1) ms ∧ WellFormedMembers ms))
  | .null | .bool _ | .num _ | .str _ => isTrue trivial
def decidableWellFormedItems : (xs : List Json) → Decidable (WellFormedItems xs)
  | [] => isTrue trivial
  | x :: xs =>
    have := decidableWellFormed x
    have := decidableWellFormedItems xs
    inferInstanceAs (Decidable (x.WellFormed ∧ WellFormedItems xs))
def decidableWellFormedMembers : (ms : List (String × Json)) → Decidable (WellFormedMembers ms)
  | [] => isTrue trivial
  | (_, v) :: ms =>
    have := decidableWellFormed v
    have := decidableWellFormedMembers ms
    inferInstanceAs (Decidable (v.WellFormed ∧ WellFormedMembers ms))
end

instance (j : Json) : Decidable j.WellFormed := decidableWellFormed j

/-- Members are well-formed one by one. -/
theorem wellFormedMembers_iff {ms : List (String × Json)} :
    WellFormedMembers ms ↔ ∀ e ∈ ms, e.2.WellFormed := by
  induction ms with
  | nil => simp [WellFormedMembers]
  | cons m ms ih =>
    obtain ⟨k, v⟩ := m
    simp only [WellFormedMembers, List.forall_mem_cons, ih]

/-- An object is well-formed if its keys are in order and its members are well-formed. -/
theorem wellFormed_obj {ms : Entries String Json} :
    (Json.obj ms).WellFormed ↔
      Entries.Sorted ms ∧ ∀ k v, Entries.get? ms k = some v → v.WellFormed := by
  simp only [WellFormed, wellFormedMembers_iff]
  -- In key order, the entries are exactly what is found under the keys
  refine and_congr_right fun hs => ⟨fun h k v hg => h _ (Entries.mem_of_get? hg), fun h e he => ?_⟩
  exact h e.1 e.2 (hs.get?_of_mem he)

/-- The keys of a well-formed object are in order. -/
theorem WellFormed.sorted {ms : Entries String Json} (h : (Json.obj ms).WellFormed) :
    Entries.Sorted ms :=
  (wellFormed_obj.1 h).1

/-- The members of a well-formed object are well-formed. -/
theorem WellFormed.member {ms : Entries String Json} (h : (Json.obj ms).WellFormed) {k : String}
    {v : Json} (hg : Entries.get? ms k = some v) : v.WellFormed :=
  (wellFormed_obj.1 h).2 k v hg

/-- The keys of a well-formed document are in order; what is no object has none. -/
theorem WellFormed.members_sorted {j : Json} (h : j.WellFormed) : Entries.Sorted j.members := by
  cases j <;> first | exact h.sorted | exact Entries.sorted_nil

/-- What is found in a well-formed document is well-formed. -/
theorem WellFormed.get? {j : Json} (h : j.WellFormed) {k : String} {v : Json}
    (hg : j.get? k = some v) : v.WellFormed := by
  cases j <;> first | exact h.member hg | cases hg

/-- An array of well-formed items is well-formed. -/
theorem wellFormed_arr {items : List Json} (h : ∀ x ∈ items, x.WellFormed) :
    (Json.arr items).WellFormed := by
  show WellFormedItems items
  induction items with
  | nil => trivial
  | cons x items ih =>
    exact ⟨h x List.mem_cons_self, ih fun y hy => h y (List.mem_cons_of_mem _ hy)⟩

/-- The items of a well-formed array are well-formed. -/
theorem WellFormed.item {items : List Json} (h : (Json.arr items).WellFormed) :
    ∀ x ∈ items, x.WellFormed := by
  change WellFormedItems items at h
  induction items with
  | nil => simp
  | cons x items ih =>
    obtain ⟨hx, hitems⟩ := h
    intro y hy
    rcases List.mem_cons.1 hy with rfl | hy
    · exact hx
    · exact ih hitems y hy

/-- Where there is no document, null stands for it. -/
theorem ofOption_eq_getD (j : Option Json) : ofOption j = j.getD .null := by
  cases j <;> rfl

/-- A document that may be missing is well-formed with null in its place. -/
theorem WellFormed.getD {j : Option Json} (h : ∀ v, j = some v → v.WellFormed) :
    (j.getD .null).WellFormed := by
  cases j with
  | none => trivial
  | some v => exact h v rfl

/-- Objects in key order are equal when their members are. -/
theorem WellFormed.ext {a b : Json} (ha : a.WellFormed) (hb : b.WellFormed)
    (hao : a.isObject = true) (hbo : b.isObject = true) (h : ∀ k, a.get? k = b.get? k) :
    a = b := by
  obtain ⟨xs, rfl⟩ := isObject_iff.1 hao
  obtain ⟨ys, rfl⟩ := isObject_iff.1 hbo
  exact congrArg Json.obj (ha.sorted.ext hb.sorted h)

/-- A well-formed document stays well-formed if a member is set to a well-formed value. -/
theorem WellFormed.set {j : Json} (h : j.WellFormed) {v : Json} (hv : v.WellFormed)
    (k : String) : (j.set k v).WellFormed := by
  refine wellFormed_obj.2 ⟨h.members_sorted.insert k v, fun k' w hg => ?_⟩
  rw [Entries.get?_insert] at hg
  split at hg
  · cases hg; exact hv
  · exact h.get? hg

/-! ## Equality of values -/

/-- Documents are the same value if their normal forms are equal. -/
theorem same_iff {a b : Json} : a.same b = true ↔ a.canon = b.canon := decide_eq_true_iff

/-- The normal form of an object has the normal forms of its members under their keys. -/
theorem canonMembers_eq_map (ms : List (String × Json)) :
    canonMembers ms = ms.map fun e => (e.1, canon e.2) := by
  induction ms with
  | nil => rfl
  | cons m ms ih => simp [canonMembers, ih]

/-- What is found among normal forms of members is the normal form of what is found among them. -/
theorem get?_canonMembers (ms : Entries String Json) (k : String) :
    Entries.get? (canonMembers ms) k = (Entries.get? ms k).map canon := by
  rw [canonMembers_eq_map]
  exact Entries.get?_map (fun _ v => canon v) ms k

/-- Objects are the same value when their members are, key by key. -/
theorem canon_obj_eq {xs ys : Entries String Json} (hx : Entries.Sorted xs)
    (hy : Entries.Sorted ys) :
    (Json.obj xs).canon = (Json.obj ys).canon ↔
      ∀ k, (Entries.get? xs k).map canon = (Entries.get? ys k).map canon := by
  simp only [canon, Json.obj.injEq]
  constructor
  · intro h k
    rw [← get?_canonMembers, ← get?_canonMembers, h]
  · intro h
    -- Normal forms keep the keys, and with them their order
    have hsorted : ∀ {ms : Entries String Json}, Entries.Sorted ms →
        Entries.Sorted (canonMembers ms) := by
      intro ms hs
      rw [canonMembers_eq_map]
      exact hs.map fun _ v => canon v
    refine (hsorted hx).ext (hsorted hy) fun k => ?_
    rw [get?_canonMembers, get?_canonMembers]
    exact h k

/-- A member of a normal form is the normal form of the member. -/
theorem get?_canon (j : Json) (k : String) : j.canon.get? k = (j.get? k).map canon := by
  cases j with
  | obj ms => exact get?_canonMembers ms k
  | _ => rfl

/-- Objects in key order are the same value when their members are. -/
theorem WellFormed.canon_eq {a b : Json} (ha : a.WellFormed) (hb : b.WellFormed)
    (hao : a.isObject = true) (hbo : b.isObject = true)
    (h : ∀ k, (a.get? k).map canon = (b.get? k).map canon) : a.canon = b.canon := by
  obtain ⟨xs, rfl⟩ := isObject_iff.1 hao
  obtain ⟨ys, rfl⟩ := isObject_iff.1 hbo
  exact (canon_obj_eq ha.sorted hb.sorted).2 h

/-- Of two documents that are the same value, both are objects or none is. -/
theorem isObject_of_canon_eq {a b : Json} (h : a.canon = b.canon) : a.isObject = b.isObject := by
  cases a <;> cases b <;> first | rfl | cases h

/-- Documents that are the same value have the same values as members. -/
theorem get?_of_canon_eq {a b : Json} (h : a.canon = b.canon) (k : String) :
    (a.get? k).map canon = (b.get? k).map canon := by
  rw [← get?_canon, ← get?_canon, h]

/-- A normal form is null if the document is. -/
@[simp] theorem isNull_canon (j : Json) : j.canon.isNull = j.isNull := by cases j <;> rfl

/-- Only null has the normal form null. -/
@[simp] theorem canon_eq_null {j : Json} : j.canon = .null ↔ j = .null := by
  cases j <;> simp [canon]

/-! ## Places that fields lead to -/

/-- The value that a chain of fields leads to. -/
def at? (j : Json) : List String → Option Json
  | [] => some j
  | k :: names => (j.get? k).bind (at? · names)

/-- No field leads to the document itself. -/
@[simp] theorem at?_nil (j : Json) : j.at? [] = some j := rfl

/-- The first of some fields leads to a member, and the others lead on from there. -/
@[simp] theorem at?_cons (j : Json) (k : String) (names : List String) :
    j.at? (k :: names) = (j.get? k).bind (·.at? names) := rfl

/-- Whatever fields lead to in a well-formed document is well-formed. -/
theorem WellFormed.at? {j : Json} (h : j.WellFormed) {names : List String} {v : Json}
    (hv : j.at? names = some v) : v.WellFormed := by
  induction names generalizing j with
  | nil => cases hv; exact h
  | cons k names ih =>
    obtain ⟨w, hw, hv⟩ := Option.bind_eq_some_iff.1 hv
    exact ih (h.get? hw) hv

/-- Fields lead to the same value in a document and in its normal form. -/
theorem at?_canon (j : Json) (names : List String) :
    j.canon.at? names = (j.at? names).map canon := by
  induction names generalizing j with
  | nil => rfl
  | cons k names ih =>
    rw [at?_cons, at?_cons, get?_canon]
    cases j.get? k with
    | none => rfl
    | some v => exact ih v

/-- The child under a field is the member of that name. -/
theorem child_field_ok {j v : Json} {k : String} :
    j.child (.field k) = .ok v ↔ j.get? k = some v := by
  cases j with
  | obj ms =>
    simp only [child, get?_obj]
    cases Entries.get? ms k <;> simp
  | _ => simp [child, Json.get?, members]

/-- A look-up of fields succeeds with what they lead to, whatever place it reports errors for. -/
private theorem lookupFrom_fields {place : Path} {j v : Json} {names : List String} :
    lookupFrom place j (names.map .field) = .ok v ↔ j.at? names = some v := by
  induction names generalizing place j with
  | nil => simp [lookupFrom]
  | cons k names ih =>
    simp only [List.map_cons, lookupFrom, at?_cons, Option.bind_eq_some_iff]
    cases hc : j.child (.field k) with
    | ok w => rw [ih]; simp [child_field_ok.1 hc]
    | error e =>
      -- The first field is missing, so the fields lead nowhere
      simp only [reduceCtorEq, false_iff]
      rintro ⟨w, hw, _⟩
      rw [child_field_ok.2 hw] at hc
      cases hc

/-- A look-up goes on below the member that its first field leads to. -/
theorem lookupFrom_cons_of_get? {j v : Json} {k : String} (h : j.get? k = some v)
    (place path : Path) :
    lookupFrom place j (.field k :: path) = lookupFrom (place ++ [.field k]) v path := by
  simp only [lookupFrom, child_field_ok.2 h]

/-- What is found below a member, or why nothing is, depends on that member only. -/
theorem lookupFrom_congr {i j : Json} (hi : i.isObject = true) (hj : j.isObject = true) {k : String}
    (h : i.get? k = j.get? k) (place path : Path) :
    lookupFrom place i (.field k :: path) = lookupFrom place j (.field k :: path) := by
  obtain ⟨xs, rfl⟩ := isObject_iff.1 hi
  obtain ⟨ys, rfl⟩ := isObject_iff.1 hj
  simp only [get?_obj] at h
  simp only [lookupFrom, child, h]

/-- Looking up a path of fields goes from member to member. -/
theorem lookup_fields {j v : Json} {names : List String} :
    j.lookup (names.map .field) = .ok v ↔ j.at? names = some v :=
  lookupFrom_fields

end Json

end BuilderControl
