import BuilderControl.Proofs.Lookups

/-!
# Replacing the value at a path

The value at a path can be taken out and another one put in its place.  Lookup and replacement are a
lens: the new value is what is found there, what stands beside the path is as it was, and putting
the old value back undoes the replacement.

## Key results

- `Json.modifyFrom_of_ok`, `Json.modifyFrom_of_error`: acting on a value is looking it up first
- `Json.lookup_overwrite_self`, `Json.lookup_overwrite_of_apart`: what is found afterwards
- `Json.overwrite_lookup`, `Json.overwrite_overwrite`, `Json.overwrite_comm`: several replacements
- `Json.replace_lawful`: the laws of lookup and replacement
-/

namespace BuilderControl

/-- Neither path leads through the place of the other one. -/
def Path.Apart (p q : Path) : Prop := ¬p <+: q ∧ ¬q <+: p

instance (p q : Path) : Decidable (p.Apart q) := inferInstanceAs (Decidable (_ ∧ _))

/-- Paths are apart from each other. -/
theorem Path.Apart.symm {p q : Path} (h : p.Apart q) : q.Apart p := ⟨h.2, h.1⟩

/-- Every path leads through the root. -/
theorem Path.not_apart_nil_left (p : Path) : ¬Path.Apart [] p := fun h => h.1 List.nil_prefix

/-- The root is on every path. -/
theorem Path.not_apart_nil_right (p : Path) : ¬Path.Apart p [] := fun h => h.2 List.nil_prefix

/-- Paths part at their first steps or after them. -/
theorem Path.apart_cons {s t : Step} {p q : Path} :
    Path.Apart (s :: p) (t :: q) ↔ s ≠ t ∨ p.Apart q := by
  by_cases hst : s = t
  · subst hst
    simp [Path.Apart, List.cons_prefix_cons]
  · simp [Path.Apart, List.cons_prefix_cons, hst, Ne.symm hst]

/-- A path beside a step goes apart before it, or takes another step in its place. -/
theorem Path.Apart.of_concat {parent other : Path} {step : Step}
    (h : Path.Apart (parent ++ [step]) other) :
    parent.Apart other ∨ ∃ next tail, next ≠ step ∧ other = parent ++ next :: tail := by
  by_cases hp : parent <+: other
  · obtain ⟨rest, rfl⟩ := hp
    cases rest with
    | nil => exact absurd ⟨[step], by rw [List.append_nil]⟩ h.2
    | cons next tail =>
      refine Or.inr ⟨next, tail, ?_, rfl⟩
      rintro rfl
      exact h.1 ⟨tail, List.append_assoc parent [next] tail⟩
  · exact Or.inl ⟨hp, fun hother => h.2 (hother.trans (List.prefix_append parent [step]))⟩

namespace Json

/-! ## Replacing a child -/

/-- The child at an index is the item there. -/
theorem child_index_ok {items : List Json} {position : Nat} {v : Json} :
    (Json.arr items).child (.index position) = .ok v ↔ items[position]? = some v := by
  simp only [child]
  cases items[position]? <;> simp

/-- The children of a well-formed document are well-formed. -/
theorem WellFormed.child {j v : Json} {step : Step} (hj : j.WellFormed) (h : j.child step = .ok v) :
    v.WellFormed := by
  cases step with
  | field name => exact hj.get? (child_field_ok.1 h)
  | index position =>
    cases j with
    | arr xs => exact hj.item v (List.mem_of_getElem? (child_index_ok.1 h))
    | _ => cases h

/-- What a path leads to in a well-formed document is well-formed. -/
theorem WellFormed.lookup {j v : Json} {path : Path} (hj : j.WellFormed)
    (h : j.lookup path = .ok v) : v.WellFormed := by
  induction path generalizing j with
  | nil => cases h; exact hj
  | cons step path ih =>
    obtain ⟨w, hc, hw⟩ := lookup_cons_ok_iff.1 h
    exact ih (hj.child hc) hw

/-- Setting a child to a well-formed value keeps a document well-formed. -/
theorem WellFormed.setChild {j v : Json} (hj : j.WellFormed) (hv : v.WellFormed) (step : Step) :
    (j.setChild step v).WellFormed := by
  cases step with
  | field name =>
    cases j with
    | obj ms => exact hj.set hv name
    | _ => exact hj
  | index position =>
    cases j with
    | arr xs =>
      refine wellFormed_arr fun x hx => ?_
      rcases List.mem_or_eq_of_mem_set hx with hx | hx
      · exact hj.item x hx
      · exact hx ▸ hv
    | _ => exact hj

/-- A child that is there is found as it was set. -/
theorem child_setChild_self {j v w : Json} {step : Step} (h : j.child step = .ok w) :
    (j.setChild step v).child step = .ok v := by
  cases step with
  | field name =>
    cases j with
    | obj ms => exact child_field_ok.2 ((Entries.get?_insert ms name v name).trans (if_pos rfl))
    | _ => cases h
  | index position =>
    cases j with
    | arr xs =>
      -- There is an item at the index, so it can be set
      have hlt : position < xs.length := (List.getElem?_eq_some_iff.1 (child_index_ok.1 h)).1
      exact child_index_ok.2 (List.getElem?_set_self hlt)
    | _ => cases h

/-- Setting a child leaves all others. -/
theorem child_setChild_of_ne (j v : Json) {s t : Step} (hne : s ≠ t) :
    (j.setChild s v).child t = j.child t := by
  cases s with
  | field k =>
    cases j with
    | obj ms =>
      cases t with
      | field l =>
        -- Two members of one object
        have hkl : l ≠ k := fun hlk => hne (congrArg Step.field hlk.symm)
        simp [setChild, child, hkl]
      | index i => rfl
    | _ => rfl
  | index i =>
    cases j with
    | arr xs =>
      cases t with
      | field k => rfl
      | index l =>
        -- Two items of one array
        have hil : i ≠ l := fun hil => hne (congrArg Step.index hil)
        simp [setChild, child, List.getElem?_set_ne hil]
    | _ => rfl

/-- Setting a child to what it is changes nothing. -/
theorem setChild_child {j v : Json} {step : Step} (hj : j.WellFormed) (h : j.child step = .ok v) :
    j.setChild step v = j := by
  cases step with
  | field name =>
    cases j with
    | obj ms => exact congrArg Json.obj (hj.sorted.insert_get? (child_field_ok.1 h))
    | _ => rfl
  | index position =>
    cases j with
    | arr xs =>
      obtain ⟨hlt, rfl⟩ := List.getElem?_eq_some_iff.1 (child_index_ok.1 h)
      exact congrArg Json.arr (List.set_getElem_self hlt)
    | _ => rfl

/-- Of two values of one child, the second one counts. -/
theorem setChild_setChild {j : Json} (hj : j.WellFormed) (step : Step) (v w : Json) :
    (j.setChild step v).setChild step w = j.setChild step w := by
  cases step with
  | field name =>
    cases j with
    | obj ms => exact congrArg Json.obj (hj.sorted.assign_assign name (some v) (some w))
    | _ => rfl
  | index position =>
    cases j with
    | arr xs => exact congrArg Json.arr (List.set_set v)
    | _ => rfl

/-- Two children can be set in either order. -/
theorem setChild_comm {j : Json} (hj : j.WellFormed) {s t : Step} (hne : s ≠ t) (v w : Json) :
    (j.setChild s v).setChild t w = (j.setChild t w).setChild s v := by
  cases s with
  | field k =>
    cases j with
    | obj ms =>
      cases t with
      | field l =>
        -- Two members of one object
        have hkl : k ≠ l := fun hkl => hne (congrArg Step.field hkl)
        exact congrArg Json.obj (hj.sorted.assign_comm hkl (some v) (some w))
      | index i => rfl
    | _ => cases t <;> rfl
  | index i =>
    cases j with
    | arr xs =>
      cases t with
      | field k => rfl
      | index l =>
        -- Two items of one array
        have hil : i ≠ l := fun hil => hne (congrArg Step.index hil)
        exact congrArg Json.arr (List.set_comm v w hil)
    | _ => cases t <;> rfl

/-! ## Replacing the value at a path -/

/-- The document with the value at a path replaced, unchanged if the path does not resolve. -/
def overwrite (j : Json) (path : Path) (value : Json) : Json :=
  match path with
  | [] => value
  | step :: path =>
    match j.child step with
    | .ok v => j.setChild step (v.overwrite path value)
    | .error _ => j

/-- A value below a child is replaced in the child. -/
theorem overwrite_cons_of_ok {j v : Json} {step : Step} (h : j.child step = .ok v) (path : Path)
    (value : Json) :
    j.overwrite (step :: path) value = j.setChild step (v.overwrite path value) := by
  rw [overwrite, h]

/-- Nothing is replaced where a path does not lead on. -/
theorem overwrite_cons_of_error {j : Json} {step : Step} {e : LookupError}
    (h : j.child step = .error e) (path : Path) (value : Json) :
    j.overwrite (step :: path) value = j := by
  rw [overwrite, h]

/-- Replacing a value by a well-formed one keeps a document well-formed. -/
theorem WellFormed.overwrite {j value : Json} (hj : j.WellFormed) (hvalue : value.WellFormed)
    (path : Path) : (j.overwrite path value).WellFormed := by
  induction path generalizing j with
  | nil => exact hvalue
  | cons step path ih =>
    cases hc : j.child step with
    | error e => rw [overwrite_cons_of_error hc]; exact hj
    | ok v => rw [overwrite_cons_of_ok hc]; exact hj.setChild (ih (hj.child hc)) step

/-- A value that is there is found as it was replaced. -/
theorem lookup_overwrite_self {j old : Json} {path : Path} (h : j.lookup path = .ok old)
    (value : Json) : (j.overwrite path value).lookup path = .ok value := by
  induction path generalizing j with
  | nil => rfl
  | cons step path ih =>
    obtain ⟨v, hc, hv⟩ := lookup_cons_ok_iff.1 h
    rw [overwrite_cons_of_ok hc]
    exact lookup_cons_ok_iff.2 ⟨_, child_setChild_self hc, ih hv⟩

/-- Replacing a value below a child leaves all other children. -/
theorem child_overwrite_of_ne (j : Json) {s t : Step} (hne : s ≠ t) (path : Path) (value : Json) :
    (j.overwrite (s :: path) value).child t = j.child t := by
  cases hc : j.child s with
  | error e => rw [overwrite_cons_of_error hc]
  | ok v => rw [overwrite_cons_of_ok hc, child_setChild_of_ne j _ hne]

/-- Nothing changes beside a path. -/
theorem lookup_overwrite_of_apart {p q : Path} (h : p.Apart q) (j value : Json) :
    (j.overwrite p value).lookup q = j.lookup q := by
  induction p generalizing j q with
  | nil => exact absurd h (Path.not_apart_nil_left q)
  | cons s p ih =>
    cases q with
    | nil => exact absurd h (Path.not_apart_nil_right _)
    | cons t q =>
      by_cases hst : s = t
      · subst hst
        -- Both paths go through the same child and part below it
        have hpq : Path.Apart p q := (Path.apart_cons.1 h).resolve_left fun hne => hne rfl
        cases hc : j.child s with
        | error e => rw [overwrite_cons_of_error hc]
        | ok v =>
          rw [overwrite_cons_of_ok hc, lookup_cons_of_ok (child_setChild_self hc),
            lookup_cons_of_ok hc, ih hpq]
      · exact lookup_cons_congr (child_overwrite_of_ne j hst p value) q

/-- Replacing a value by itself changes nothing. -/
theorem overwrite_lookup {j old : Json} {path : Path} (hj : j.WellFormed)
    (h : j.lookup path = .ok old) : j.overwrite path old = j := by
  induction path generalizing j with
  | nil => cases h; rfl
  | cons step path ih =>
    obtain ⟨v, hc, hv⟩ := lookup_cons_ok_iff.1 h
    rw [overwrite_cons_of_ok hc, ih (hj.child hc) hv, setChild_child hj hc]

/-- Of two values at one path, the second one counts. -/
theorem overwrite_overwrite {j : Json} (hj : j.WellFormed) (path : Path) (v w : Json) :
    (j.overwrite path v).overwrite path w = j.overwrite path w := by
  induction path generalizing j with
  | nil => rfl
  | cons step path ih =>
    cases hc : j.child step with
    | error e => rw [overwrite_cons_of_error hc, overwrite_cons_of_error hc]
    | ok x =>
      rw [overwrite_cons_of_ok hc, overwrite_cons_of_ok hc,
        overwrite_cons_of_ok (child_setChild_self hc), setChild_setChild hj, ih (hj.child hc)]

/-- A child can be set before or after a value below another one is replaced. -/
theorem overwrite_setChild_of_ne {j : Json} (hj : j.WellFormed) {s t : Step} (hne : s ≠ t)
    (v : Json) (path : Path) (value : Json) :
    (j.setChild s v).overwrite (t :: path) value = (j.overwrite (t :: path) value).setChild s v := by
  have hchild := child_setChild_of_ne j v hne
  cases hc : j.child t with
  | error e => rw [overwrite_cons_of_error hc, overwrite_cons_of_error (hchild.trans hc)]
  | ok w =>
    rw [overwrite_cons_of_ok hc, overwrite_cons_of_ok (hchild.trans hc), setChild_comm hj hne]

/-- Replacements beside each other can be made in either order. -/
theorem overwrite_comm {j : Json} (hj : j.WellFormed) {p q : Path} (h : p.Apart q) (v w : Json) :
    (j.overwrite p v).overwrite q w = (j.overwrite q w).overwrite p v := by
  induction p generalizing j q with
  | nil => exact absurd h (Path.not_apart_nil_left q)
  | cons s p ih =>
    cases q with
    | nil => exact absurd h (Path.not_apart_nil_right _)
    | cons t q =>
      by_cases hst : s = t
      · subst hst
        -- Both paths lead into the same child, and go apart behind it
        have hpq : Path.Apart p q := (Path.apart_cons.1 h).resolve_left fun hne => hne rfl
        cases hc : j.child s with
        | error e => simp only [overwrite_cons_of_error hc]
        | ok x =>
          rw [overwrite_cons_of_ok hc, overwrite_cons_of_ok hc,
            overwrite_cons_of_ok (child_setChild_self hc),
            overwrite_cons_of_ok (child_setChild_self hc), setChild_setChild hj,
            setChild_setChild hj, ih (hj.child hc) hpq]
      · -- Neither replacement touches the child that the other one is made in
        have hchild := child_overwrite_of_ne j (Ne.symm hst) q w
        cases hc : j.child s with
        | error e => rw [overwrite_cons_of_error hc, overwrite_cons_of_error (hchild.trans hc)]
        | ok x =>
          rw [overwrite_cons_of_ok hc, overwrite_cons_of_ok (hchild.trans hc),
            overwrite_setChild_of_ne hj hst]

/-! ## Acting on the value at a path -/

section

variable {α : Type} {action : Path → Json → Except LookupError (α × Json)} {place : Path} {j : Json}
  {path : Path}

/-- The value that an action gives stands where the one that it was given stood. -/
theorem modifyFrom_of_ok {v : Json} (h : j.lookup path = .ok v) :
    modifyFrom action place j path =
      (action (place ++ path) v).map fun (a, w) => (a, j.overwrite path w) := by
  induction path generalizing place j with
  | nil =>
    cases h
    rw [modifyFrom, List.append_nil]
    cases action place v <;> rfl
  | cons step path ih =>
    obtain ⟨w, hc, hw⟩ := lookup_cons_ok_iff.1 h
    rw [modifyFrom, hc]
    simp only [ih hw, List.append_assoc, List.singleton_append, overwrite_cons_of_ok hc]
    cases action (place ++ step :: path) v <;> rfl

/-- An action on what is not there fails like the lookup. -/
theorem modifyFrom_of_error {e : LookupError} (h : j.lookup path = .error e) :
    modifyFrom action place j path = .error (e.under place) := by
  induction path generalizing place j e with
  | nil => cases h
  | cons step path ih =>
    rw [modifyFrom]
    -- The lookup fails at the first step or below the child
    cases hc : j.child step with
    | error reason =>
      rw [lookup_cons_of_error hc] at h
      cases h
      rw [LookupError.under_at, List.append_nil]
    | ok v =>
      rw [lookup_cons_of_ok hc] at h
      cases hv : v.lookup path with
      | ok w => rw [hv] at h; cases h
      | error inner =>
        rw [hv] at h
        cases h
        simp only [ih hv, LookupError.under_under]
        rfl

end

/-! ## The laws of lookup and replacement -/

/-- A replacement succeeds where a value is found, and overwrites it. -/
theorem replace_ok_iff {j value old new : Json} {path : Path} :
    j.replace path value = .ok (old, new) ↔
      j.lookup path = .ok old ∧ new = j.overwrite path value := by
  cases h : j.lookup path with
  | error e => simp [replace, modifyFrom_of_error h]
  | ok v => simp [replace, modifyFrom_of_ok h, Except.map, eq_comm]

/-- A replacement fails where and as the lookup does. -/
theorem replace_of_error {j value : Json} {path : Path} {e : LookupError}
    (h : j.lookup path = .error e) : j.replace path value = .error e := by
  rw [replace, modifyFrom_of_error h, LookupError.under_nil]

/-- What it means that `new` is the document `j` with `value` in the place of `old`. -/
structure Replaces (j : Json) (path : Path) (value old new : Json) : Prop where
  found : new.lookup path = .ok value
  below : ∀ rest, new.lookup (path ++ rest) = (value.lookup rest).mapError (.under path)
  beside : ∀ other : Path, path.Apart other → new.lookup other = j.lookup other
  restored : new.replace path old = .ok (value, j)
  /-- A replacement beside this one can be made before it or after it. -/
  commutes : ∀ (other : Path) (value' old' new' : Json), path.Apart other →
    j.replace other value' = .ok (old', new') →
      ∃ both, new.replace other value' = .ok (old', both) ∧
        new'.replace path value = .ok (old, both)
  wellFormed : value.WellFormed → new.WellFormed

/-- A lookup that fails tells the longest part of the path that resolves and why the next step fails
there, a replacement succeeds where the lookup does and fails as the lookup does, and a value that
was replaced obeys the laws of a lens. -/
theorem replace_lawful {j : Json} (hj : j.WellFormed) (path : Path) :
    (∀ e, j.lookup path = .error e ↔
      ∃ place reason, e = .at place reason ∧ j.StopsAt path place reason) ∧
    ∀ value, (j.replace path value).map Prod.fst = j.lookup path ∧
      ∀ old new, j.replace path value = .ok (old, new) → Replaces j path value old new := by
  refine ⟨fun e => lookup_eq_error_iff, fun value => ⟨?_, fun old new h => ?_⟩⟩
  · cases h : j.lookup path with
    | error e => rw [replace_of_error h, Except.map]
    | ok v => rw [replace_ok_iff.2 ⟨h, rfl⟩, Except.map]
  · obtain ⟨hold, rfl⟩ := replace_ok_iff.1 h
    have hfound := lookup_overwrite_self hold value
    refine ⟨hfound, lookup_append_of_ok hfound, ?_, ?_, ?_, fun hvalue => hj.overwrite hvalue path⟩
    · intro other hother
      exact lookup_overwrite_of_apart hother j value
    · refine replace_ok_iff.2 ⟨hfound, ?_⟩
      -- The value that was there before is put back
      rw [overwrite_overwrite hj, overwrite_lookup hj hold]
    · intro other value' old' new' hother h'
      obtain ⟨hold', rfl⟩ := replace_ok_iff.1 h'
      refine ⟨_, replace_ok_iff.2 ⟨?_, rfl⟩, replace_ok_iff.2 ⟨?_, ?_⟩⟩
      · rw [lookup_overwrite_of_apart hother, hold']
      · rw [lookup_overwrite_of_apart hother.symm, hold]
      · exact overwrite_comm hj hother value value'

/-- A member of an object in an array is replaced, and a path leads past the end of the array. -/
theorem replace_lawful_in_array :
    let order (id : Json) : Json := .obj [("metadata", .obj [("name", .str "base")]),
      ("spec", .obj [("order", .arr [.obj [("id", .str "go")], .obj [("id", id)]])])]
    let path : Path := [.field "spec", .field "order", .index 1, .field "id"]
    (order (.str "java")).WellFormed ∧
      Replaces (order (.str "java")) path .null (.str "java") (order .null) ∧
      (order (.str "java")).StopsAt [.field "spec", .field "order", .index 2, .field "id"]
        [.field "spec", .field "order"] .outOfBounds := by
  intro order path
  have hj : (order (.str "java")).WellFormed := by decide
  refine ⟨hj, ((replace_lawful hj path).2 .null).2 _ _ rfl, ?_⟩
  obtain ⟨place, reason, he, hstops⟩ := ((replace_lawful hj
    [.field "spec", .field "order", .index 2, .field "id"]).1
      (.at [.field "spec", .field "order"] .outOfBounds)).1 rfl
  cases he
  exact hstops

end Json

end BuilderControl
