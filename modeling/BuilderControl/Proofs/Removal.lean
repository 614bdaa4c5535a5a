import BuilderControl.Proofs.Replacement

/-!
# Removing the value at a path

A removal acts on the value one step before the end of the path, and takes out a child of it.  It
finds what the lookup finds and fails as the lookup does, but for a member that is not there: then
nothing is removed.  What stands beside the place is as it was, and of an array the items behind the
removed one move up.

## Key results

- `Json.remove_of_found`, `Json.remove_of_absent`, `Json.remove_of_refused`: the three ways in which
  a removal ends
- `Json.removes_eraseChild`: what a removal leaves
- `Json.remove_agrees`: removal beside lookup
-/

namespace BuilderControl

/-- The reason for an error, wherever it arose. -/
def LookupError.cause : LookupError → LookupError
  | .at _ reason => reason
  | .fieldNotFound => .fieldNotFound
  | .notAnObject => .notAnObject
  | .notAnArray => .notAnArray
  | .outOfBounds => .outOfBounds
  | .emptyPath => .emptyPath

/-- The reason for an error does not depend on where the document stands. -/
private theorem mapError_cause_under {α : Type} (place : Path) (x : Except LookupError α) :
    (x.mapError (LookupError.under place)).mapError LookupError.cause =
      x.mapError LookupError.cause := by
  cases x with
  | ok a => rfl
  | error e => cases e <;> rfl

namespace Json

/-! ## Dropping a child -/

/-- The document without the child of an existing step. -/
def eraseChild (j : Json) (step : Step) : Json :=
  match step, j with
  | .field name, .obj ms => .obj (Entries.erase ms name)
  | .index position, .arr xs => .arr (xs.eraseIdx position)
  | _, j => j

/-- Dropping a child keeps a document well-formed. -/
theorem WellFormed.eraseChild {j : Json} (hj : j.WellFormed) (step : Step) :
    (j.eraseChild step).WellFormed := by
  cases step with
  | field name =>
    cases j with
    | obj ms =>
      refine wellFormed_obj.2 ⟨hj.sorted.erase name, fun k v hg => ?_⟩
      rw [hj.sorted.get?_erase] at hg
      split at hg
      · cases hg
      · exact hj.member hg
    | _ => exact hj
  | index position =>
    cases j with
    | arr xs => exact wellFormed_arr fun x hx => hj.item x (List.mem_of_mem_eraseIdx hx)
    | _ => exact hj

/-- A member that was dropped is not found. -/
theorem child_eraseChild_field {j : Json} (hj : j.WellFormed) (hobj : j.isObject = true)
    (name : String) : (j.eraseChild (.field name)).child (.field name) = .error .fieldNotFound := by
  obtain ⟨ms, rfl⟩ := isObject_iff.1 hobj
  have hgone : Entries.get? (Entries.erase ms name) name = none := by
    rw [hj.sorted.get?_erase, if_pos rfl]
  simp [eraseChild, child, hgone]

/-- Dropping a member leaves all other children. -/
theorem child_eraseChild_of_ne {j : Json} (hj : j.WellFormed) {name : String} {step : Step}
    (hne : step ≠ .field name) : (j.eraseChild (.field name)).child step = j.child step := by
  cases j with
  | obj ms =>
    cases step with
    | field k =>
      have hk : k ≠ name := fun hk => hne (congrArg Step.field hk)
      simp [eraseChild, child, hj.sorted.get?_erase, hk]
    | index i => rfl
  | _ => rfl

/-- Items behind the erased one move up. -/
theorem child_eraseChild_index (items : List Json) (position k : Nat) :
    ((Json.arr items).eraseChild (.index position)).child (.index k) =
      (Json.arr items).child (.index (if k < position then k else k + 1)) := by
  simp only [eraseChild, child, List.getElem?_eraseIdx]
  by_cases hk : k < position
  · simp only [if_pos hk]
  · simp only [if_neg hk]

/-- A child that is there is dropped, and a member that is not there is none to drop. -/
theorem dropChild_eq {j : Json} (hj : j.WellFormed) (step : Step) :
    j.dropChild step =
      match j.child step with
      | .ok v => .ok (some v, j.eraseChild step)
      | .error .fieldNotFound => .ok (none, j)
      | .error e => .error e := by
  cases step with
  | field name =>
    cases j with
    | obj ms =>
      cases hg : Entries.get? ms name with
      | none =>
        -- The map is assigned the value that it has, which is none
        have herase := hj.sorted.assign_get? name
        rw [hg] at herase
        simp only [dropChild, child, hg]
        exact congrArg (fun ms => Except.ok (none, Json.obj ms)) herase
      | some v => simp only [dropChild, child, hg, eraseChild]
    | _ => rfl
  | index position =>
    cases j with
    | arr xs => cases hx : xs[position]? <;> simp only [dropChild, child, hx, eraseChild]
    | _ => rfl

/-! ## The three ways in which a removal ends -/

section

variable {j : Json} {parent : Path} {step : Step}

/-- A removal changes the value one step before the end of the path. -/
theorem remove_concat : j.remove (parent ++ [step]) =
    modifyFrom (fun place v => (v.dropChild step).mapError (.at place)) [] j parent := by
  rw [remove, List.getLast?_concat, List.dropLast_concat]

/-- A path of one more step leads to a child of the value before it. -/
theorem lookup_concat_of_ok {v : Json} (h : j.lookup parent = .ok v) :
    j.lookup (parent ++ [step]) = (v.child step).mapError (.at parent) := by
  rw [lookup_append_of_ok h, lookup_singleton]
  cases v.child step with
  | ok w => rfl
  | error e => simp

/-- A lookup does not stop at the end of its path. -/
theorem lookup_ne_error_at_self (reason : LookupError) :
    j.lookup parent ≠ .error (.at parent reason) := by
  intro h
  obtain ⟨place, reason', he, ⟨v, next, rest, hparent, -⟩, -⟩ := lookup_eq_error_iff.1 h
  cases he
  simp at hparent

/-- A value that is found is removed, and nothing else. -/
theorem remove_of_found {x : Json} (hj : j.WellFormed) (h : j.lookup (parent ++ [step]) = .ok x) :
    ∃ v, j.lookup parent = .ok v ∧ v.child step = .ok x ∧
      j.remove (parent ++ [step]) = .ok (some x, j.overwrite parent (v.eraseChild step)) := by
  cases hv : j.lookup parent with
  | error e => rw [lookup_append_of_error hv] at h; cases h
  | ok v =>
    rw [lookup_concat_of_ok hv] at h
    cases hc : v.child step with
    | error e => rw [hc] at h; cases h
    | ok w =>
      rw [hc] at h
      cases h
      refine ⟨v, rfl, hc, ?_⟩
      -- The parent is found, so the removal drops a child of it
      rw [remove_concat, modifyFrom_of_ok hv, dropChild_eq (hj.lookup hv), hc]
      rfl

/-- A member that is missing from an object that is there is not removed. -/
theorem remove_of_absent (hj : j.WellFormed)
    (h : j.lookup (parent ++ [step]) = .error (.at parent .fieldNotFound)) :
    j.remove (parent ++ [step]) = .ok (none, j) := by
  cases hv : j.lookup parent with
  | error e =>
    rw [lookup_append_of_error hv] at h
    cases h
    exact absurd hv (lookup_ne_error_at_self _)
  | ok v =>
    rw [lookup_concat_of_ok hv] at h
    cases hc : v.child step with
    | ok w => rw [hc] at h; cases h
    | error e =>
      rw [hc] at h
      cases h
      rw [remove_concat, modifyFrom_of_ok hv, dropChild_eq (hj.lookup hv), hc]
      simp [Except.map, overwrite_lookup hj hv]

/-- A removal fails as the lookup does, unless only the member is missing. -/
theorem remove_of_refused {e : LookupError} (hj : j.WellFormed)
    (h : j.lookup (parent ++ [step]) = .error e) (hne : e ≠ .at parent .fieldNotFound) :
    j.remove (parent ++ [step]) = .error e := by
  cases hv : j.lookup parent with
  | error e' =>
    rw [lookup_append_of_error hv] at h
    cases h
    rw [remove_concat, modifyFrom_of_error hv, LookupError.under_nil]
  | ok v =>
    rw [lookup_concat_of_ok hv] at h
    cases hc : v.child step with
    | ok w => rw [hc] at h; cases h
    | error reason =>
      rw [hc] at h
      cases h
      rw [remove_concat, modifyFrom_of_ok hv, dropChild_eq (hj.lookup hv), hc]
      -- Only a missing member is no error for a removal
      cases reason <;> first | rfl | exact absurd rfl hne

end

/-! ## What a removal leaves -/

/-- What taking a member out of an object leaves. -/
structure RemovesMember (j : Json) (path : Path) (rest : Json) : Prop where
  gone : rest.has path = false
  beside : ∀ other : Path, path.Apart other → rest.lookup other = j.lookup other

/-- What taking an item out of the array at `parent` leaves.  Behind the item, what is not found is
missing for the same reason as before. -/
structure RemovesItem (j : Json) (parent : Path) (position : Nat) (rest : Json) : Prop where
  before : ∀ k < position, ∀ tail : Path,
    rest.lookup (parent ++ .index k :: tail) = j.lookup (parent ++ .index k :: tail)
  behind : ∀ k ≥ position, ∀ tail : Path,
    (rest.lookup (parent ++ .index k :: tail)).mapError LookupError.cause =
      (j.lookup (parent ++ .index (k + 1) :: tail)).mapError LookupError.cause
  beside : ∀ other : Path, parent.Apart other → rest.lookup other = j.lookup other

/-- What taking out what a step goes to leaves. -/
def Removes (j : Json) (parent : Path) (step : Step) (rest : Json) : Prop :=
  match step with
  | .field name => RemovesMember j (parent ++ [.field name]) rest
  | .index position => RemovesItem j parent position rest

/-- Paths that start with equal children find the same, or fail for the same reason. -/
private theorem mapError_cause_lookup_cons {i j : Json} {s t : Step} (h : i.child s = j.child t)
    (path : Path) : (i.lookup (s :: path)).mapError LookupError.cause =
      (j.lookup (t :: path)).mapError LookupError.cause := by
  cases hc : j.child t with
  | error e => rw [lookup_cons_of_error hc, lookup_cons_of_error (h.trans hc)]
  | ok v =>
    rw [lookup_cons_of_ok hc, lookup_cons_of_ok (h.trans hc), mapError_cause_under,
      mapError_cause_under]

/-- What taking out a child of the value at a place leaves. -/
theorem removes_eraseChild {j v x : Json} {parent : Path} {step : Step} (hj : j.WellFormed)
    (hv : j.lookup parent = .ok v) (hx : v.child step = .ok x) :
    Removes j parent step (j.overwrite parent (v.eraseChild step)) := by
  have hrest := lookup_overwrite_self hv (v.eraseChild step)
  have hbeside : ∀ other, parent.Apart other →
      (j.overwrite parent (v.eraseChild step)).lookup other = j.lookup other :=
    fun other hother => lookup_overwrite_of_apart hother j _
  cases step with
  | field name =>
    refine ⟨?_, fun other hother => ?_⟩
    · -- The field itself is gone
      have hobj := isObject_of_get? (child_field_ok.1 hx)
      rw [has, lookup_concat_of_ok hrest, child_eraseChild_field (hj.lookup hv) hobj]
      rfl
    · rcases hother.of_concat with hother | ⟨next, tail, hne, rfl⟩
      · exact hbeside other hother
      · -- The other path leads to another child of the object
        rw [lookup_append_of_ok hrest, lookup_append_of_ok hv,
          lookup_cons_congr (child_eraseChild_of_ne (hj.lookup hv) hne)]
  | index position =>
    cases v with
    | arr items =>
      refine ⟨fun k hk tail => ?_, fun k hk tail => ?_, hbeside⟩
      · -- Items in front of the removed one stay where they are
        have hchild := child_eraseChild_index items position k
        rw [if_pos hk] at hchild
        rw [lookup_append_of_ok hrest, lookup_append_of_ok hv, lookup_cons_congr hchild]
      · -- An error behind the item tells another place than before
        have hchild := child_eraseChild_index items position k
        rw [if_neg (Nat.not_lt.2 hk)] at hchild
        rw [lookup_append_of_ok hrest, lookup_append_of_ok hv, mapError_cause_under,
          mapError_cause_under, mapError_cause_lookup_cons hchild]
    | _ => cases hx

/-! ## Removal beside lookup -/

/-- A removal gives what the lookup gives, and nothing for a member that is missing from an object
that is there; else it fails like the lookup.  It changes the document only if it removes something,
and then nothing beside the place. -/
theorem remove_agrees {j : Json} (hj : j.WellFormed) (parent : Path) (step : Step) :
    (∀ x, (∃ rest, j.remove (parent ++ [step]) = .ok (some x, rest)) ↔
      j.lookup (parent ++ [step]) = .ok x) ∧
    (∀ rest, j.remove (parent ++ [step]) = .ok (none, rest) ↔
      j.lookup (parent ++ [step]) = .error (.at parent .fieldNotFound) ∧ rest = j) ∧
    (∀ e, j.remove (parent ++ [step]) = .error e ↔
      j.lookup (parent ++ [step]) = .error e ∧ e ≠ .at parent .fieldNotFound) ∧
    ((∀ x, j.lookup (parent ++ [step]) ≠ .ok x) → j.without (parent ++ [step]) = j) ∧
    ∀ x rest, j.remove (parent ++ [step]) = .ok (some x, rest) →
      rest.WellFormed ∧ Removes j parent step rest := by
  -- The lookup decides which of the three ways the removal takes
  cases h : j.lookup (parent ++ [step]) with
  | ok x =>
    obtain ⟨v, hv, hx, hremove⟩ := remove_of_found hj h
    simp only [without, hremove]
    refine ⟨by simp [eq_comm], by simp, by simp, by simp, fun y rest hy => ?_⟩
    cases hy
    exact ⟨hj.overwrite ((hj.lookup hv).eraseChild step) parent, removes_eraseChild hj hv hx⟩
  | error e =>
    by_cases he : e = .at parent .fieldNotFound
    · subst he
      simp only [without, remove_of_absent hj h]
      refine ⟨by simp, by simp [eq_comm], fun e => ?_, by simp, by simp⟩
      -- This lookup fails, but the removal does not
      constructor
      · rintro ⟨⟩
      · rintro ⟨⟨⟩, hne⟩
        exact absurd rfl hne
    · simp only [without, remove_of_refused hj h he]
      refine ⟨by simp, fun rest => ?_, fun e' => ?_, by simp, by simp⟩
      · constructor
        · rintro ⟨⟩
        · rintro ⟨⟨⟩, -⟩
          exact absurd rfl he
      · constructor
        · rintro ⟨⟩
          exact ⟨rfl, he⟩
        · rintro ⟨⟨⟩, -⟩
          rfl

/-- The first of two items is taken out, and a member that is not there is not. -/
theorem remove_agrees_in_array :
    let spec (items : List Json) : Json :=
      .obj [("metadata", .obj [("name", .str "base")]), ("spec", .obj [("order", .arr items)])]
    let java : Json := .obj [("id", .str "java")]
    (spec [.null, java]).WellFormed ∧
      RemovesItem (spec [.null, java]) [.field "spec", .field "order"] 0 (spec [java]) ∧
      (spec [.null, java]).remove [.field "spec", .field "stack"] =
        .ok (none, spec [.null, java]) := by
  intro spec java
  have hj : (spec [.null, java]).WellFormed := by decide
  obtain ⟨-, -, -, -, hremoves⟩ :=
    remove_agrees hj [.field "spec", .field "order"] (.index 0)
  obtain ⟨-, hnone, -⟩ := remove_agrees hj [.field "spec"] (.field "stack")
  exact ⟨hj, (hremoves .null (spec [java]) rfl).2, (hnone _).2 ⟨rfl, rfl⟩⟩

end Json

end BuilderControl
