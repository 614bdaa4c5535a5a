import BuilderControl.Path

/-! # Leaves of a document

A leaf is a place that an object path leads to and that holds anything but an object with
members; arrays are leaves whatever they hold. -/

namespace BuilderControl.Json

mutual
/-- Leaves of a document that stands at `place`. -/
def leavesAt (place : Path) : Json → List Path
  | .obj [] => if place.isEmpty then [] else [place]
  | .obj (m :: ms) => leavesOfMembers place (m :: ms)
  | .null | .bool _ | .num _ | .str _ | .arr _ => if place.isEmpty then [] else [place]
termination_by structural j => j
def leavesOfMembers (place : Path) : List (String × Json) → List Path
  | [] => []
  | (k, v) :: ms => leavesAt (place ++ [.field k]) v ++ leavesOfMembers place ms
termination_by structural ms => ms
end

/-- Paths of all leaves below the document itself. -/
def leaves (j : Json) : List Path := leavesAt [] j

end BuilderControl.Json
