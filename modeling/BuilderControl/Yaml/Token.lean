import BuilderControl.Yaml.Properties

/-! # Tokens of YAML text -/

namespace BuilderControl.Yaml

inductive TokenKind where
  | streamEnd
  | directive
  | documentStart | documentEnd
  | blockSequence | blockMapping | blockEnd
  | flowSequence | flowSequenceEnd | flowMapping | flowMappingEnd
  | blockEntry | flowEntry
  | key | value
  | reference (name : String)
  | anchor (name : String)
  | tag (tag : Tag)
  | scalar (plain : Bool) (text : String)
deriving DecidableEq, Inhabited

structure Token where
  kind : TokenKind
  mark : Mark
deriving DecidableEq, Inhabited

end BuilderControl.Yaml
