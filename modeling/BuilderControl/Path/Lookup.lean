import BuilderControl.Path

/-! # Lookup, replacement and removal at a path

`lookup` finds the value at a path; `modify` acts on the value at a path and leaves everything
else in place.  `replace` and `remove` are `modify` with the action that stores a value and the
one that drops a child.  An error carries the longest part of the path that resolves. -/

namespace BuilderControl.Json

/-- The child a step goes to. -/
def child (j : Json) : Step → Except LookupError Json
  | .field name =>
    match j with
    | .obj ms => match Entries.get? ms name with
      | some v => .ok v
      | none => .error .fieldNotFound
    | _ => .error .notAnObject
  | .index position =>
    match j with
    | .arr xs => match xs[position]? with
      | some v => .ok v
      | none => .error .outOfBounds
    | _ => .error .notAnArray

/-- The document with the child of an existing step replaced. -/
def setChild (j : Json) (step : Step) (value : Json) : Json :=
  match step, j with
  | .field name, .obj ms => .obj (Entries.insert ms name value)
  | .index position, .arr xs => .arr (xs.set position value)
  | _, j => j

/-- The value at `path`, where `place` is how the document itself was reached. -/
def lookupFrom (place : Path) (j : Json) : Path → Except LookupError Json
  | [] => .ok j
  | step :: path =>
    match j.child step with
    | .ok v => lookupFrom (place ++ [step]) v path
    | .error e => .error (.at place e)

/-- The value at a path. -/
def lookup (j : Json) (path : Path) : Except LookupError Json := lookupFrom [] j path

/-- Whether a path resolves. -/
def has (j : Json) (path : Path) : Bool := (j.lookup path).isOk

/-- Acts on the value at a path: the action's result is kept, and its new value stands where the
old one stood. -/
def modifyFrom {α : Type} (action : Path → Json → Except LookupError (α × Json)) (place : Path)
    (j : Json) : Path → Except LookupError (α × Json)
  | [] => action place j
  | step :: path =>
    match j.child step with
    | .ok v => (modifyFrom action (place ++ [step]) v path).map fun (a, v') => (a, j.setChild step v')
    | .error e => .error (.at place e)

/-- Replaces the value at a path, and gives the old value with the new document. -/
def replace (j : Json) (path : Path) (value : Json) : Except LookupError (Json × Json) :=
  modifyFrom (fun _ old => .ok (old, value)) [] j path

/-- Drops a child.  An absent member is no error, so nothing may have been dropped. -/
def dropChild (j : Json) (step : Step) : Except LookupError (Option Json × Json) :=
  match step with
  | .field name =>
    match j with
    | .obj ms => .ok (Entries.get? ms name, .obj (Entries.erase ms name))
    | _ => .error .notAnObject
  | .index position =>
    match j with
    | .arr xs => match xs[position]? with
      | some v => .ok (some v, .arr (xs.eraseIdx position))
      | none => .error .outOfBounds
    | _ => .error .notAnArray

/-- Removes the value at a path, and gives it with the new document. -/
def remove (j : Json) (path : Path) : Except LookupError (Option Json × Json) :=
  match path.getLast? with
  | none => .error .emptyPath
  | some step =>
    modifyFrom (fun place parent => (parent.dropChild step).mapError (.at place)) [] j path.dropLast

/-- The document after a removal, unchanged if the removal fails. -/
def without (j : Json) (path : Path) : Json :=
  match j.remove path with
  | .ok (_, rest) => rest
  | .error _ => j

end BuilderControl.Json
