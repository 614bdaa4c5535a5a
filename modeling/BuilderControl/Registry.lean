import BuilderControl.Resource.Type

/-! # Identities by type

A registry knows the identity of resource types.  It is asked only about objects that state no
identity of their own. -/

namespace BuilderControl

/-- Identities of some types; of two entries for a type the first one counts. -/
structure Registry where
  entries : List (ResourceType × Identity) := []
deriving DecidableEq, Inhabited

namespace Registry

def insert (r : Registry) (type : ResourceType) (identity : Identity) : Registry :=
  ⟨(type, identity) :: r.entries⟩

def lookup (r : Registry) (type : ResourceType) : Option Identity :=
  (r.entries.find? fun (t, _) => t = type).map Prod.snd

/-- Every type with the identity its objects have. -/
def standard : Registry := ⟨ResourceType.all.map fun t => (t, t.identity)⟩

end Registry

end BuilderControl
