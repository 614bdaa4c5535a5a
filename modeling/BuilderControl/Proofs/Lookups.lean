import BuilderControl.Proofs.Document

/-!
# Where a path stops

Looking up a path goes from child to child.  So a path that goes on from a place is looked up in the
value at that place, and a path that does not resolve stops at the end of its longest part that
does.

## Key results

- `Json.lookup_append_of_ok`, `Json.lookup_append_of_error`: one path after another
- `Json.lookup_eq_error_iff`: where a lookup stops, and why
-/

namespace BuilderControl

namespace Except

variable {ε ε' α : Type}

/-- An error is changed. -/
@[simp] theorem mapError_error (f : ε → ε') (e : ε) :
    (.error e : Except ε α).mapError f = .error (f e) := rfl

/-- A result stays when errors are changed. -/
@[simp] theorem mapError_ok (f : ε → ε') (a : α) :
    (.ok a : Except ε α).mapError f = .ok a := rfl

end Except

/-- The error as it reads where the document that it is about stands at `place`. -/
def LookupError.under (place : Path) : LookupError → LookupError
  | .at inner reason => .at (place ++ inner) reason
  | .fieldNotFound => .fieldNotFound
  | .notAnObject => .notAnObject
  | .notAnArray => .notAnArray
  | .outOfBounds => .outOfBounds
  | .emptyPath => .emptyPath

/-- A place in an error is put below the place of the document. -/
@[simp] theorem LookupError.under_at (place inner : Path) (reason : LookupError) :
    under place (.at inner reason) = .at (place ++ inner) reason := rfl

/-- Places are put one below the other. -/
theorem LookupError.under_under (p q : Path) (e : LookupError) :
    under p (under q e) = under (p ++ q) e := by
  cases e with
  | «at» inner reason => simp only [under_at, List.append_assoc]
  | _ => rfl

/-- At the root, an error reads as it is. -/
theorem LookupError.under_nil (e : LookupError) : under [] e = e := by
  cases e <;> rfl

/-- Errors are put below one place after the other. -/
private theorem mapError_under_under {α : Type} (p q : Path) (x : Except LookupError α) :
    (x.mapError (LookupError.under q)).mapError (LookupError.under p) =
      x.mapError (LookupError.under (p ++ q)) := by
  cases x with
  | ok a => rfl
  | error e => exact congrArg Except.error (LookupError.under_under p q e)

/-- At the root, a result is as it is. -/
private theorem mapError_under_nil {α : Type} (x : Except LookupError α) :
    x.mapError (.under []) = x := by
  cases x with
  | ok a => rfl
  | error e => exact congrArg Except.error (LookupError.under_nil e)

namespace Json

/-! ## From child to child -/

/-- The empty path leads to the document itself. -/
@[simp] theorem lookup_nil (j : Json) : j.lookup [] = .ok j := rfl

/-- How the document was reached shows in the place of an error and nowhere else. -/
theorem lookupFrom_eq (place : Path) (j : Json) (path : Path) :
    lookupFrom place j path = (j.lookup path).mapError (.under place) := by
  induction path generalizing place j with
  | nil => rfl
  | cons step path ih =>
    rw [lookup, lookupFrom, lookupFrom]
    cases j.child step with
    | error e => rw [Except.mapError_error, LookupError.under_at, List.append_nil]
    | ok v =>
      simp only
      -- Both lookups go on in the child, from different places
      rw [ih, ih, mapError_under_under, List.nil_append]

/-- A path goes on in the child that its first step leads to. -/
theorem lookup_cons_of_ok {j v : Json} {step : Step} (h : j.child step = .ok v) (path : Path) :
    j.lookup (step :: path) = (v.lookup path).mapError (.under [step]) := by
  rw [← lookupFrom_eq, lookup, lookupFrom, h]
  rfl

/-- A path stops at the document if its first step fails. -/
theorem lookup_cons_of_error {j : Json} {step : Step} {e : LookupError}
    (h : j.child step = .error e) (path : Path) :
    j.lookup (step :: path) = .error (.at [] e) := by
  rw [lookup, lookupFrom, h]

/-- A path resolves if its first step leads to a child in which the rest of it resolves. -/
theorem lookup_cons_ok_iff {j w : Json} {step : Step} {path : Path} :
    j.lookup (step :: path) = .ok w ↔ ∃ v, j.child step = .ok v ∧ v.lookup path = .ok w := by
  cases h : j.child step with
  | error e => simp [lookup_cons_of_error h]
  | ok v =>
    rw [lookup_cons_of_ok h]
    cases hv : v.lookup path with
    | error e => simp [hv]
    | ok x => simp [hv]

/-- A path of one step leads to a child. -/
theorem lookup_singleton (j : Json) (step : Step) :
    j.lookup [step] = (j.child step).mapError (.at []) := by
  cases h : j.child step with
  | error e => rw [lookup_cons_of_error h, Except.mapError_error]
  | ok v => rw [lookup_cons_of_ok h, lookup_nil, Except.mapError_ok, Except.mapError_ok]

/-- What is found below a child, or why nothing is, depends on that child only. -/
theorem lookup_cons_congr {i j : Json} {step : Step} (h : i.child step = j.child step)
    (path : Path) : i.lookup (step :: path) = j.lookup (step :: path) := by
  rw [lookup, lookup, lookupFrom, lookupFrom, h]

/-- Beyond a place that is found, a path is looked up in the value there. -/
theorem lookup_append_of_ok {j v : Json} {p : Path} (h : j.lookup p = .ok v) (q : Path) :
    j.lookup (p ++ q) = (v.lookup q).mapError (.under p) := by
  induction p generalizing j with
  | nil =>
    cases h
    rw [mapError_under_nil, List.nil_append]
  | cons step p ih =>
    obtain ⟨w, hw, h⟩ := lookup_cons_ok_iff.1 h
    rw [List.cons_append, lookup_cons_of_ok hw, ih h, mapError_under_under, List.singleton_append]

/-- Beyond a place that is not found, nothing is found for the same reason. -/
theorem lookup_append_of_error {j : Json} {p : Path} {e : LookupError} (h : j.lookup p = .error e)
    (q : Path) : j.lookup (p ++ q) = .error e := by
  induction p generalizing j e with
  | nil => cases h
  | cons step p ih =>
    rw [List.cons_append]
    -- The first path fails at its first step or in the child
    cases hc : j.child step with
    | error reason => rw [lookup_cons_of_error hc, ← h, lookup_cons_of_error hc]
    | ok v =>
      rw [lookup_cons_of_ok hc] at h ⊢
      cases hv : v.lookup p with
      | ok w => rw [hv] at h; cases h
      | error inner => rw [ih hv, ← h, hv]

/-- Each part of a path that resolves does so too. -/
theorem exists_lookup_of_prefix {j v : Json} {p q : Path} (hq : q <+: p) (h : j.lookup p = .ok v) :
    ∃ w, j.lookup q = .ok w := by
  obtain ⟨rest, rfl⟩ := hq
  cases hw : j.lookup q with
  | ok w => exact ⟨w, rfl⟩
  | error e => rw [lookup_append_of_error hw] at h; cases h

/-! ## Where a lookup stops -/

/-- `place` is the longest part of a path that resolves, and `reason` is why the next step fails
there. -/
structure StopsAt (j : Json) (path place : Path) (reason : LookupError) : Prop where
  next : ∃ v step rest, path = place ++ step :: rest ∧ j.lookup place = .ok v ∧
    v.child step = .error reason
  longest : ∀ q v, q <+: path → j.lookup q = .ok v → q <+: place

/-- A path stops at a place that is found, if the next step fails there. -/
theorem lookup_of_child_error {j v : Json} {place : Path} {step : Step} {reason : LookupError}
    (h : j.lookup place = .ok v) (hreason : v.child step = .error reason) (rest : Path) :
    j.lookup (place ++ step :: rest) = .error (.at place reason) := by
  rw [lookup_append_of_ok h, lookup_cons_of_error hreason, Except.mapError_error,
    LookupError.under_at, List.append_nil]

/-- Where a path does not resolve, there is a step that fails at a place that is found. -/
private theorem exists_next {j : Json} {path : Path} {e : LookupError}
    (h : j.lookup path = .error e) : ∃ place v step rest reason, path = place ++ step :: rest ∧
      j.lookup place = .ok v ∧ v.child step = .error reason := by
  induction path generalizing j e with
  | nil => cases h
  | cons step path ih =>
    cases hc : j.child step with
    | error reason => exact ⟨[], j, step, path, reason, rfl, rfl, hc⟩
    | ok v =>
      rw [lookup_cons_of_ok hc] at h
      cases hv : v.lookup path with
      | ok w => rw [hv] at h; cases h
      | error inner =>
        obtain ⟨place, w, next, rest, reason, rfl, hw, hreason⟩ := ih hv
        exact ⟨step :: place, w, next, rest, reason, rfl, lookup_cons_ok_iff.2 ⟨v, hc, hw⟩, hreason⟩

/-- A lookup that fails tells the longest part of the path that resolves, and why the next step
fails there. -/
theorem lookup_eq_error_iff {j : Json} {path : Path} {e : LookupError} :
    j.lookup path = .error e ↔
      ∃ place reason, e = .at place reason ∧ j.StopsAt path place reason := by
  constructor
  · intro h
    obtain ⟨place, v, step, rest, reason, rfl, hv, hreason⟩ := exists_next h
    rw [lookup_of_child_error hv hreason] at h
    cases h
    refine ⟨place, reason, rfl, ⟨v, step, rest, rfl, hv, hreason⟩, fun q w hq hw => ?_⟩
    -- A longer part of the path would lead through the step that fails
    have hstep : ∀ w, j.lookup (place ++ [step]) ≠ .ok w := fun w hw => by
      rw [lookup_of_child_error hv hreason []] at hw
      cases hw
    have hnext : place ++ [step] <+: place ++ step :: rest := ⟨rest, List.append_assoc place _ rest⟩
    rcases List.prefix_or_prefix_of_prefix hq hnext with hp | hp
    · rcases List.prefix_concat_iff.1 hp with rfl | hp
      · exact absurd hw (hstep w)
      · exact hp
    · obtain ⟨x, hx⟩ := exists_lookup_of_prefix hp hw
      exact absurd hx (hstep x)
  · rintro ⟨place, reason, rfl, ⟨v, step, rest, rfl, hv, hreason⟩, -⟩
    exact lookup_of_child_error hv hreason rest

end Json

end BuilderControl
