import BuilderControl.Yaml.Node
import BuilderControl.Yaml.Token.Lexer

/-! # Streams of YAML documents

Tokens are taken from left to right and put together to nodes.

* `Parse.node`       the node that starts with the next token
* `Parse.document`   the next document, if there is one
* `Stream.ofText`    all documents of a text -/

namespace BuilderControl.Yaml

/-- What is left of the tokens, and the anchors met so far. -/
structure Unparsed where
  tokens : List Token
  /-- What is at fault after the tokens. -/
  fault : Option Fault
  /-- Numbers of the anchors in this document by name, latest first. -/
  names : List (String × Nat) := []
  /-- How many anchors there were in all documents. -/
  count : Nat := 0
  anchors : Anchors := []
deriving Inhabited

abbrev Parse := StateT Unparsed (Except Fault)

namespace Parse

def fail {α : Type} (kind : FaultKind) (mark : Mark) : Parse α := throw ⟨kind, mark⟩

/-- The next token. -/
def peek : Parse Token := do
  let s ← get
  match s.tokens with
  | t :: _ => return t
  | [] => throw (s.fault.getD ⟨.unexpectedEnd, {}⟩)

def skip : Parse Unit := modify fun s => { s with tokens := s.tokens.tail }

/-- Skips tokens of a kind. -/
def skipAll (kind : TokenKind) : Parse Unit :=
  modify fun s => { s with tokens := s.tokens.dropWhile fun t => t.kind = kind }

/-- Gives a name to the node that follows. -/
def nameAnchor (name : String) : Parse Nat := do
  let s ← get
  set { s with count := s.count + 1, names := (name, s.count) :: s.names }
  return s.count

/-- The anchor of a node, if the next token is one. -/
def anchor? : Parse (Option Nat) := do
  match (← peek).kind with
  | .anchor name =>
    skip
    return some (← nameAnchor name)
  | _ => return none

/-- The tag of a node, if the next token is one. -/
def tag? : Parse (Option Tag) := do
  match (← peek).kind with
  | .tag tag =>
    skip
    return some tag
  | _ => return none

/-- The anchor and the tag of a node, in either order. -/
def properties : Parse (Option Nat × Option Tag) := do
  match ← anchor? with
  | some anchor => return (some anchor, ← tag?)
  | none => match ← tag? with
    | some tag => return (← anchor?, some tag)
    | none => return (none, none)

mutual
/-- Parses a node, where block collections may start if `block`, and where the entries of a block
list may stand without indentation if `flat`.  `fuel` bounds the nodes and entries on the way. -/
def node (block flat : Bool) : Nat → Parse Node
  | 0 => do fail .nodeContentMissing (← peek).mark
  | fuel + 1 => do
    let t ← peek
    if let .reference name := t.kind then
      skip
      match (← get).names.lookup name with
      | some anchor => return .reference anchor t.mark
      | none => fail .unknownAnchor t.mark
    let (anchor, tag) ← properties
    let t ← peek
    let n ← match t.kind, block, flat with
      | .scalar plain text, _, _ => do
        skip
        pure (.scalar plain tag text t.mark)
      | .flowSequence, _, _ => do
        skip
        pure (.list (← flowItems true fuel) t.mark)
      | .flowMapping, _, _ => do
        skip
        pure (.map (← flowPairs true fuel) t.mark)
      | .blockSequence, true, _ => do
        skip
        pure (.list (← blockItems fuel) t.mark)
      | .blockMapping, true, _ => do
        skip
        pure (.map (← blockPairs fuel) t.mark)
      | .blockEntry, _, true => do pure (.list (← flatItems fuel) t.mark)
      | _, _, _ =>
        if anchor.isSome || tag.isSome then pure (.scalar true tag "" t.mark)
        else fail .nodeContentMissing t.mark
    if let some number := anchor then
      modify fun s => { s with anchors := (number, n) :: s.anchors }
    return n
termination_by structural fuel => fuel
/-- A node unless the next token ends it. -/
def nodeUnless (ends : TokenKind → Bool) (block flat : Bool) : Nat → Parse Node
  | 0 => do fail .nodeContentMissing (← peek).mark
  | fuel + 1 => do
    let t ← peek
    if ends t.kind then return .absent t.mark else node block flat fuel
termination_by structural fuel => fuel
/-- Entries of a block list. -/
def blockItems : Nat → Parse (List Node)
  | 0 => do fail .blockEntryMissing (← peek).mark
  | fuel + 1 => do
    let t ← peek
    match t.kind with
    | .blockEnd =>
      skip
      return []
    | .blockEntry =>
      skip
      let x ← nodeUnless (fun k => k = .blockEntry || k = .blockEnd) true false fuel
      let xs ← blockItems fuel
      return x :: xs
    | _ => fail .blockEntryMissing t.mark
termination_by structural fuel => fuel
/-- Entries of a block list that is not indented. -/
def flatItems : Nat → Parse (List Node)
  | 0 => do fail .blockEntryMissing (← peek).mark
  | fuel + 1 => do
    let t ← peek
    match t.kind with
    | .blockEntry =>
      skip
      let x ← nodeUnless (fun k => k = .blockEntry || k = .key || k = .value || k = .blockEnd)
        true false fuel
      let xs ← flatItems fuel
      return x :: xs
    | _ => return []
termination_by structural fuel => fuel
/-- Pairs of a block mapping. -/
def blockPairs : Nat → Parse (List (Node × Node))
  | 0 => do fail .blockKeyMissing (← peek).mark
  | fuel + 1 => do
    let ends (k : TokenKind) : Bool := k = .key || k = .value || k = .blockEnd
    let t ← peek
    if t.kind = .blockEnd then
      skip
      return []
    let key ← match t.kind with
      | .key => do
        skip
        nodeUnless ends true true fuel
      | .value => pure (Node.absent t.mark)
      | _ => fail .blockKeyMissing t.mark
    let t ← peek
    let value ←
      if t.kind = .value then do
        skip
        nodeUnless ends true true fuel
      else pure (Node.absent t.mark)
    let pairs ← blockPairs fuel
    return (key, value) :: pairs
termination_by structural fuel => fuel
/-- Pairs of a flow mapping. -/
def flowPairs (first : Bool) : Nat → Parse (List (Node × Node))
  | 0 => do fail .flowMappingEnd (← peek).mark
  | fuel + 1 => do
    let ends (k : TokenKind) : Bool := k = .flowEntry || k = .flowMappingEnd
    let t ← peek
    if t.kind = .flowMappingEnd then
      skip
      return []
    if !first then
      if t.kind ≠ .flowEntry then fail .flowMappingEnd t.mark
      skip
    let t ← peek
    if t.kind = .flowMappingEnd then
      skip
      return []
    let pair ← match t.kind with
      | .key => do
        skip
        let key ← nodeUnless (fun k => k = .value || ends k) false false fuel
        pure (key, ← flowValue ends fuel)
      | .value => do pure (Node.absent t.mark, ← flowValue ends fuel)
      | _ => do
        let key ← node false false fuel
        pure (key, Node.absent (← peek).mark)
    let pairs ← flowPairs false fuel
    return pair :: pairs
termination_by structural fuel => fuel
/-- The value of a pair in a flow collection; a missing one stands where its colon does, if there
is one. -/
def flowValue (ends : TokenKind → Bool) : Nat → Parse Node
  | 0 => do fail .flowMappingEnd (← peek).mark
  | fuel + 1 => do
    let t ← peek
    if t.kind ≠ .value then return .absent t.mark
    skip
    if ends (← peek).kind then return .absent t.mark
    node false false fuel
termination_by structural fuel => fuel
/-- Entries of a flow list.  A key is an entry of its own, a mapping of one pair. -/
def flowItems (first : Bool) : Nat → Parse (List Node)
  | 0 => do fail .flowSequenceEnd (← peek).mark
  | fuel + 1 => do
    let t ← peek
    if t.kind = .flowSequenceEnd then
      skip
      return []
    if !first then
      if t.kind ≠ .flowEntry then fail .flowSequenceEnd t.mark
      skip
    let t ← peek
    if t.kind = .flowSequenceEnd then
      skip
      return []
    let item ←
      if t.kind = .key then do
        skip
        pure (.map [← flowPair fuel] t.mark)
      else node false false fuel
    let items ← flowItems false fuel
    return item :: items
termination_by structural fuel => fuel
/-- The pair of a mapping that is an entry of a flow list; the token that ends a missing key is
taken for a part of it. -/
def flowPair : Nat → Parse (Node × Node)
  | 0 => do fail .flowSequenceEnd (← peek).mark
  | fuel + 1 => do
    let ends (k : TokenKind) : Bool := k = .flowEntry || k = .flowSequenceEnd
    let t ← peek
    let key ←
      if t.kind = .value || ends t.kind then do
        skip
        pure (Node.absent t.mark)
      else node false false fuel
    let t ← peek
    let value ←
      if t.kind = .value then do
        skip
        nodeUnless ends false false fuel
      else pure (Node.absent t.mark)
    return (key, value)
termination_by structural fuel => fuel
end

/-- The content of a document after its start was marked. -/
def content (fuel : Nat) : Parse Node := do
  let t ← peek
  match t.kind with
  | .directive | .documentStart | .documentEnd | .streamEnd => return .absent t.mark
  | _ => node true false fuel

/-- The next document, if there is one.  The `first` one needs no mark before it. -/
def document (first : Bool) (fuel : Nat) : Parse (Option Node) := do
  if !first then skipAll .documentEnd
  let t ← peek
  if t.kind = .streamEnd then return none
  modify fun s => { s with names := [] }
  let root ←
    if first && t.kind ≠ .directive && t.kind ≠ .documentStart then node true false fuel
    else do
      skipAll .directive
      let t ← peek
      if t.kind ≠ .documentStart then fail .documentStartMissing t.mark
      skip
      content fuel
  if (← peek).kind = .documentEnd then skip
  return some root

/-- All documents to the end of the stream; `fuel` bounds them. -/
def documents (first : Bool) : Nat → Parse (List Node)
  | 0 => return []
  | fuel + 1 => do
    match ← document first fuel with
    | none => return []
    | some root =>
      let roots ← documents false fuel
      return root :: roots

end Parse

/-- The documents of a text. -/
structure Stream where
  documents : List Node
  anchors : Anchors
deriving Inhabited

/-- Reads all documents of a text.  Every second step takes a token. -/
def Stream.ofText (text : String) : Except Fault Stream := do
  let scanned := tokens text
  let (documents, s) ← (Parse.documents true (2 * scanned.tokens.length + 4)).run
    { tokens := scanned.tokens, fault := scanned.fault }
  return ⟨documents, s.anchors⟩

end BuilderControl.Yaml
