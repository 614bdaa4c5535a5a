import BuilderControl.Yaml.Properties

/-! # Nodes of YAML documents

A node can have an anchor, which an alias that comes later stands for; the alias may stand inside
the node itself, so it is kept as it is and looked up when the node it stands for is wanted. -/

namespace BuilderControl.Yaml

inductive Node where
  | scalar (plain : Bool) (tag : Option Tag) (text : String) (mark : Mark)
  | list (items : List Node) (mark : Mark)
  | map (pairs : List (Node × Node)) (mark : Mark)
  /-- Stands for the node of an anchor. -/
  | reference (anchor : Nat) (mark : Mark)
deriving Inhabited

namespace Node

def mark : Node → Mark
  | scalar _ _ _ mark | list _ mark | map _ mark | reference _ mark => mark

/-- The node where there is none. -/
def absent (mark : Mark) : Node := .scalar true none "~" mark

end Node

/-- Nodes by the number of their anchor. -/
abbrev Anchors := List (Nat × Node)

end BuilderControl.Yaml
