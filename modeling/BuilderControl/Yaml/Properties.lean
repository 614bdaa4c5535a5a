import BuilderControl.Text.Numeral
import BuilderControl.Yaml.Cursor

/-! # Properties of YAML nodes

A node can have a tag, which says what its content has to be, and an anchor, by which aliases
stand for the node. -/

namespace BuilderControl.Yaml

/-- A tag, by the name of its namespace and the name in it. -/
structure Tag where
  handle : String
  suffix : String
deriving DecidableEq, Inhabited

namespace Tag

/-- The handle of a tag, such as `!` or `!!`. -/
def handleChars (inDirective : Bool) (c : Cursor) : Except FaultKind (List Char × Cursor) :=
  if c.char ≠ '!' then .error .tagMarkMissing
  else
    let (word, after) := c.next.span isWord
    if after.char = '!' then .ok ('!' :: word ++ ['!'], after.next)
    else if inDirective && !word.isEmpty then .error .directiveTagMarkMissing
    else .ok ('!' :: word, after)

/-- The octet of an escape, if one stands here. -/
def octet? (c : Cursor) : Option Nat :=
  if c.char = '%' then Text.natural 16 [c.ahead 1, c.ahead 2] else none

/-- The further octets of an escaped character, each of which is put behind the ones before. -/
def trailingOctets : Nat → Nat → Cursor → Except FaultKind (Nat × Cursor)
  | 0, code, c => .ok (code, c)
  | count + 1, code, c =>
    match octet? c with
    | none => .error .tagOctetMissing
    | some octet =>
      if octet / 0x40 ≠ 2 then .error .tagTrailingOctet
      else trailingOctets count (code * 0x100 + octet) (c.drop 3)

/-- An escaped character. -/
def escapedChar (c : Cursor) : Except FaultKind (Char × Cursor) := do
  let octet ← match octet? c with
    | none => throw .tagOctetMissing
    | some octet => pure octet
  let more ←
    if octet < 0x80 then pure 0
    else if octet / 0x20 = 6 then pure 1
    else if octet / 0x10 = 14 then pure 2
    else if octet / 0x08 = 30 then pure 3
    else throw .tagLeadingOctet
  let (code, c) ← trailingOctets more octet (c.drop 3)
  if h : code.isValidChar then return (Char.ofNatAux code h, c) else throw .tagCodePoint

/-- Characters that a tag is made of. -/
def isNameChar (c : Char) : Bool :=
  isWord c || c ∈ [';', '/', '?', ':', '@', '&', '=', '+', '$', ',', '.', '!', '~', '*', '\x27', '(',
    ')', '[', ']', '%']

/-- Characters of a tag; `fuel` bounds them. -/
def nameChars : Nat → Cursor → Except FaultKind (List Char × Cursor)
  | 0, c => .ok ([], c)
  | fuel + 1, c =>
    if !isNameChar c.char then .ok ([], c)
    else do
      let (x, c) ← if c.char = '%' then escapedChar c else pure (c.char, c.next)
      let (xs, c) ← nameChars fuel c
      return (x :: xs, c)

/-- The name in a tag, of which `head` was already read. -/
def nameFrom (head : List Char) (c : Cursor) : Except FaultKind (List Char × Cursor) := do
  let (chars, after) ← nameChars c.left c
  if head.isEmpty && chars.isEmpty then throw .tagUriMissing
  return (head.drop 1 ++ chars, after)

/-- A tag. -/
def read (c : Cursor) : Except FaultKind (Tag × Cursor) := do
  let (tag, c) ←
    if c.ahead 1 = '<' then do
      let (name, c) ← nameFrom [] (c.drop 2)
      if c.char ≠ '>' then throw .tagCloseMissing
      pure (Tag.mk "" (String.ofList name), c.next)
    else do
      let (handle, c) ← handleChars false c
      if 2 ≤ handle.length && handle.getLast? = some '!' then
        let (name, c) ← nameFrom [] c
        pure (Tag.mk (String.ofList handle) (String.ofList name), c)
      else
        let (name, c) ← nameFrom handle c
        pure (if name.isEmpty then Tag.mk "" "!" else Tag.mk "!" (String.ofList name), c)
  if !isSpaceOrEnd c.char then throw .tagEndMissing
  return (tag, c)

end Tag

/-- The name of an anchor. -/
def anchorName (c : Cursor) : Except FaultKind (String × Cursor) :=
  let (name, after) := c.next.span isWord
  let x := after.char
  if name.isEmpty || !(isSpaceOrEnd x || x ∈ ['?', ':', ',', ']', '\x7d', '%', '@', '\x60']) then
    .error .anchorMissing
  else .ok (String.ofList name, after)

end BuilderControl.Yaml
