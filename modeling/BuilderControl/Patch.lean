import BuilderControl.Json.Printer
import BuilderControl.Path.Lookup
import BuilderControl.Path.Leaves

/-! # Merge patches

A merge patch is a partial document: present members are set, `null` members are removed, absent
members are left alone.  `merge` applies a patch and `difference` computes one; `Differ` compares
documents after the fields it ignores are taken out. -/

namespace BuilderControl

namespace Json

mutual
/-- The document after a merge patch.  Whatever is no object replaces the whole target. -/
def merge (target : Json) : Json → Json
  | .obj changes => .obj (mergeMembers target.members changes)
  | .null => .null
  | .bool b => .bool b
  | .num n => .num n
  | .str s => .str s
  | .arr xs => .arr xs
termination_by structural patch => patch
def mergeMembers (target : Entries String Json) : List (String × Json) → Entries String Json
  | [] => target
  | (k, v) :: changes =>
    let next :=
      if v.isNull then Entries.erase target k
      else Entries.insert target k (merge ((Entries.get? target k).getD .null) v)
    mergeMembers next changes
termination_by structural changes => changes
end

/-- The `null` members that remove what `desired` lacks. -/
def removals (observed desired : Entries String Json) : Entries String Json :=
  (observed.filter fun (k, _) => !desired.contains k).map fun (k, _) => (k, .null)

/-- The desired value, unless it is there already. -/
def unlessSame (observed : Option Json) (desired : Json) : Option Json :=
  match observed with
  | some present => if present.same desired then none else some desired
  | none => some desired

mutual
/-- What a patch says at a place that should hold the given value, if anything. -/
def change (observed : Option Json) : Json → Option Json
  | .obj desired =>
    match observed with
    | some (.obj present) =>
      match Entries.union (removals present desired) (changesOfMembers present desired) with
      | [] => none
      | changes => some (.obj changes)
    | _ => some (.obj desired)
  | .null => match observed with
    | none | some .null => none
    | some _ => some .null
  | .bool b => unlessSame observed (.bool b)
  | .num n => unlessSame observed (.num n)
  | .str s => unlessSame observed (.str s)
  | .arr xs => unlessSame observed (.arr xs)
termination_by structural desired => desired
def changesOfMembers (observed : Entries String Json) : List (String × Json) → Entries String Json
  | [] => []
  | (k, v) :: desired =>
    match change (Entries.get? observed k) v with
    | some v' => Entries.insert (changesOfMembers observed desired) k v'
    | none => changesOfMembers observed desired
termination_by structural desired => desired
end

/-- Members of the patch between two objects. -/
def difference (observed desired : Entries String Json) : Entries String Json :=
  Entries.union (removals observed desired) (changesOfMembers observed desired)

end Json

/-- A merge patch, by its members. -/
@[ext] structure MergePatch where
  members : Entries String Json
deriving DecidableEq, Inhabited

namespace MergePatch

def isEmpty (p : MergePatch) : Bool := p.members.isEmpty

def toJson (p : MergePatch) : Json := .obj p.members

/-- The text that is submitted; an empty patch has none. -/
def body (p : MergePatch) : String := if p.isEmpty then "" else p.toJson.compact

/-- Places the patch sets or removes. -/
def changedPaths (p : MergePatch) : List Path := p.toJson.leaves

/-- The target after the patch. -/
def apply (p : MergePatch) (target : Json) : Json := target.merge p.toJson

end MergePatch

/-- Compares documents, leaving out some places. -/
structure Differ where
  ignored : List Path
deriving Inhabited

namespace Differ

/-- Fields that the server owns. -/
def serverOwned : List Path :=
  [ [.field "status"],
    [.field "metadata", .field "managedFields"],
    [.field "metadata", .field "resourceVersion"],
    [.field "metadata", .field "generation"],
    [.field "metadata", .field "uid"],
    [.field "metadata", .field "creationTimestamp"],
    [.field "metadata", .field "selfLink"] ]

/-- Drift in fields that the server owns never ends up in a patch. -/
def standard : Differ := ⟨serverOwned⟩

/-- The document without the ignored places. -/
def strip (d : Differ) (j : Json) : Json := d.ignored.foldl Json.without j

/-- What a comparison can be. -/
inductive Outcome where
  /-- Two objects, or equal values. -/
  | difference (patch : MergePatch)
  /-- One side is no object: the desired one is taken as a whole, as far as a patch can say it. -/
  | replacement (patch : MergePatch)

def Outcome.patch : Outcome → MergePatch
  | .difference p | .replacement p => p

def compare (d : Differ) (observed desired : Json) : Outcome :=
  match d.strip observed, d.strip desired with
  | .obj present, .obj wanted => .difference ⟨Json.difference present wanted⟩
  | present, wanted =>
    if present.same wanted then .difference ⟨[]⟩ else .replacement ⟨wanted.members⟩

/-- The patch that turns `observed` into `desired`. -/
def diff (d : Differ) (observed desired : Json) : MergePatch := (d.compare observed desired).patch

end Differ

end BuilderControl
