import BuilderControl.Yaml.Directive
import BuilderControl.Yaml.Scalar
import BuilderControl.Yaml.Token

/-! # Lexing YAML text

Text becomes tokens from left to right.  Indentation opens and closes block collections, and a
colon may turn what stands before it on its line into a key, so a token is handed out only when no
key can come before it any more.

* `Lexer.step`   finds at least one more token
* `Lexer.settle` finds tokens until the first one is final
* `tokens`       all tokens of a text, up to the first fault -/

namespace BuilderControl.Yaml

/-- A place where a key without an indicator may have started: a colon on the same line makes it
one. -/
structure ImplicitKey where
  possible : Bool := false
  /-- Nothing but a key may stand here. -/
  required : Bool := false
  /-- Number of the token before which the key starts. -/
  token : Nat := 0
  /-- How many characters are left from the key on. -/
  left : Nat := 0
  mark : Mark := {}
deriving DecidableEq, Inhabited

/-- What the lexer knows between tokens. -/
structure Lexer where
  cursor : Cursor
  /-- Tokens that were found and not yet handed out. -/
  queue : List Token := []
  /-- How many tokens were handed out. -/
  delivered : Nat := 0
  /-- For each open flow collection and for what is around them, innermost first. -/
  keys : List ImplicitKey := [{}]
  /-- An implicit key may start here. -/
  keyAllowed : Bool := true
  /-- Column of the innermost block collection; -1 outside of all. -/
  indent : Int := -1
  /-- Columns of the block collections around it. -/
  indents : List Int := []
  flowLevel : Nat := 0
  /-- How many characters are left after quoted text that ends just before them. -/
  adjacent : Option Nat := none
deriving Inhabited

namespace Lexer

def fail {α : Type} (kind : FaultKind) (mark : Mark) : Except Fault α := .error ⟨kind, mark⟩

def char (s : Lexer) : Char := s.cursor.char

def mark (s : Lexer) : Mark := s.cursor.mark

def column (s : Lexer) : Int := s.cursor.column

def inFlow (s : Lexer) : Bool := s.flowLevel ≠ 0

def push (s : Lexer) (kind : TokenKind) (mark : Mark) : Lexer :=
  { s with queue := s.queue ++ [⟨kind, mark⟩] }

/-- Puts a token before the one of a number. -/
def insert (s : Lexer) (number : Nat) (kind : TokenKind) (mark : Mark) : Lexer :=
  { s with queue := s.queue.insertIdx (number - s.delivered) ⟨kind, mark⟩ }

def allowKey (s : Lexer) (allowed : Bool) : Lexer := { s with keyAllowed := allowed }

/-- Passes over an indicator of some characters, which is a token. -/
def take (s : Lexer) (kind : TokenKind) (length : Nat) : Lexer :=
  { s.push kind s.mark with cursor := s.cursor.drop length }

/-! ### Indentation -/

/-- Opens a block collection at a column to the right of the innermost one. -/
def openAt (s : Lexer) (column : Int) (start : Lexer → Lexer) : Lexer :=
  if s.inFlow || column ≤ s.indent then s
  else start { s with indent := column, indents := s.indent :: s.indents }

/-- How many block collections end at a column, and what is around them. -/
def closing (column : Int) : Int → List Int → Nat × Int × List Int
  | indent, [] => (0, indent, [])
  | indent, outer :: indents =>
    if column < indent then
      let (count, rest) := closing column outer indents
      (count + 1, rest)
    else (0, indent, outer :: indents)

/-- Closes the block collections to the right of a column. -/
def close (s : Lexer) (column : Int) : Lexer :=
  if s.inFlow then s
  else
    let (count, indent, indents) := closing column s.indent s.indents
    { s with indent, indents, queue := s.queue ++ List.replicate count ⟨.blockEnd, s.mark⟩ }

/-! ### Implicit keys -/

/-- Characters that an implicit key can have. -/
def implicitKeyLimit : Nat := 1024

/-- Gives up implicit keys that the line has ended of or that are too long. -/
def expireKeys (s : Lexer) : Except Fault Lexer := do
  let isOver (k : ImplicitKey) : Bool :=
    k.possible && (k.mark.line < s.mark.line || s.cursor.left + implicitKeyLimit < k.left)
  if s.keys.any fun k => isOver k && k.required then fail .implicitKeyColonMissing s.mark
  return { s with keys := s.keys.map fun k => if isOver k then { k with possible := false } else k }

/-- Gives up the innermost implicit key. -/
def dropKey (s : Lexer) : Except Fault Lexer :=
  match s.keys with
  | [] => .ok s
  | k :: keys =>
    if k.possible && k.required then fail .implicitKeyExpected s.mark
    else .ok { s with keys := { k with possible := false } :: keys }

/-- Notes that an implicit key may start here. -/
def noteKey (s : Lexer) : Except Fault Lexer :=
  if !s.keyAllowed then .ok s
  else s.dropKey.map fun s =>
    let key : ImplicitKey :=
      { possible := true, required := s.inFlow && s.indent = s.column
        token := s.delivered + s.queue.length, left := s.cursor.left, mark := s.mark }
    { s with keys := key :: s.keys.tail }

/-! ### Between tokens -/

/-- How many characters stand before the next token, and whether an implicit key may start there. -/
def gap (inFlow : Bool) : (comment allowed : Bool) → List Char → Nat × Bool
  | _, allowed, [] => (0, allowed)
  | comment, allowed, c :: cs =>
    let more (r : Nat × Bool) : Nat × Bool := (r.1 + 1, r.2)
    if isBreak c then more (gap inFlow false (allowed || !inFlow) cs)
    else if comment || c = ' ' || (c = '\t' && (inFlow || !allowed)) then
      more (gap inFlow comment allowed cs)
    else if c = '#' then more (gap inFlow true allowed cs)
    else (0, allowed)

/-- Passes over what stands before the next token. -/
def dropGap (s : Lexer) : Lexer :=
  let (length, allowed) := gap s.inFlow false s.keyAllowed s.cursor.rest
  { s with cursor := s.cursor.drop length, keyAllowed := allowed }

/-! ### Tokens -/

def lexStreamEnd (s : Lexer) : Except Fault Lexer := do
  let m := s.mark
  let m := if m.column = 0 then m else ⟨m.line + 1, 0⟩
  let s := { s with cursor := { s.cursor with mark := m } }
  let s ← (s.close (-1)).dropKey
  return (s.allowKey false).push .streamEnd m

def lexDirective (s : Lexer) : Except Fault Lexer := do
  let s ← (s.close (-1)).dropKey
  let c ← Directive.read s.mark s.cursor.next
  return { (s.allowKey false).push .directive s.mark with cursor := c }

def lexDocumentMark (s : Lexer) (kind : TokenKind) : Except Fault Lexer := do
  let s ← (s.close (-1)).dropKey
  return (s.allowKey false).take kind 3

/-- Flow collections nest up to this depth. -/
def flowLimit : Nat := 255

def lexFlowStart (s : Lexer) (kind : TokenKind) : Except Fault Lexer := do
  let s ← s.noteKey
  if flowLimit ≤ s.flowLevel then fail .tooDeep s.mark
  return ({ s with keys := {} :: s.keys, flowLevel := s.flowLevel + 1 }.allowKey true).take kind 1

def lexFlowEnd (s : Lexer) (kind : TokenKind) : Except Fault Lexer := do
  let s ← s.dropKey
  let s := if s.inFlow then { s with flowLevel := s.flowLevel - 1, keys := s.keys.tail } else s
  return (s.allowKey false).take kind 1

def lexFlowEntry (s : Lexer) : Except Fault Lexer := do
  let s ← s.dropKey
  return (s.allowKey true).take .flowEntry 1

def lexBlockEntry (s : Lexer) : Except Fault Lexer := do
  if s.inFlow then fail .entryOutsideBlock s.mark
  if !s.keyAllowed then fail .entryNotAllowed s.mark
  let s ← (s.openAt s.column (·.push .blockSequence s.mark)).dropKey
  return (s.allowKey true).take .blockEntry 1

def lexKey (s : Lexer) : Except Fault Lexer := do
  if !s.inFlow && !s.keyAllowed then fail .keyNotAllowed s.mark
  let s ← (s.openAt s.column (·.push .blockMapping s.mark)).dropKey
  return (s.allowKey !s.inFlow).take .key 1

def lexValue (s : Lexer) : Except Fault Lexer :=
  match s.keys with
  | k :: keys =>
    if k.possible then
      let s := (s.insert k.token .key k.mark).openAt k.mark.column
        (·.insert k.token .blockMapping s.mark)
      let s := { s with keys := { k with possible := false } :: keys }
      .ok ((s.allowKey false).take .value 1)
    else plain
  | [] => plain
where
  /-- The key was no implicit one. -/
  plain : Except Fault Lexer := do
    if !s.inFlow && !s.keyAllowed then fail .valueNotAllowed s.mark
    let s := s.openAt s.column (·.push .blockMapping s.mark)
    return (s.allowKey !s.inFlow).take .value 1

def lexAnchor (s : Lexer) (kind : String → TokenKind) : Except Fault Lexer := do
  let s ← s.noteKey
  let (name, c) ← (anchorName s.cursor).mapError (⟨·, s.mark⟩)
  return { (s.allowKey false).push (kind name) s.mark with cursor := c }

def lexTag (s : Lexer) : Except Fault Lexer := do
  let s ← s.noteKey
  let (tag, c) ← (Tag.read s.cursor).mapError (⟨·, s.mark⟩)
  return { (s.allowKey false).push (.tag tag) s.mark with cursor := c }

def lexBlockText (s : Lexer) (literal : Bool) : Except Fault Lexer := do
  let s ← s.noteKey
  let block ← blockText literal s.indent s.cursor
  return { (s.allowKey true).push (.scalar false block.text) block.mark with cursor := block.cursor }

def lexQuotedText (s : Lexer) (single : Bool) : Except Fault Lexer := do
  let s ← s.noteKey
  let (text, c) ← (quotedText single s.cursor).mapError (⟨·, s.mark⟩)
  return { (s.allowKey false).push (.scalar false text) s.mark with
    cursor := c, adjacent := some c.left }

def lexPlainText (s : Lexer) : Except Fault Lexer := do
  let s ← s.noteKey
  let plain ← (plainText s.inFlow s.indent s.cursor).mapError (⟨·, s.mark⟩)
  return { (s.allowKey plain.broken).push (.scalar true (String.ofList plain.text)) s.mark with
    cursor := plain.cursor }

/-- Whether a colon stands between a key and its value. -/
def isValueMark (s : Lexer) : Bool :=
  let next := s.cursor.ahead 1
  isSpaceOrEnd next || (s.inFlow && (isFlow next || s.adjacent = some s.cursor.left))

/-- Finds the next token, and tokens for what its place opens and closes. -/
def step (s : Lexer) : Except Fault Lexer := do
  let s ← s.dropGap.expireKeys
  let s := s.close s.column
  let x := s.char
  let next := s.cursor.ahead 1
  if s.cursor.atEnd then s.lexStreamEnd
  else if s.column = 0 && x = '%' then s.lexDirective
  else if s.cursor.atMarker '-' then s.lexDocumentMark .documentStart
  else if s.cursor.atMarker '.' then s.lexDocumentMark .documentEnd
  else match x with
    | '[' => s.lexFlowStart .flowSequence
    | '\x7b' => s.lexFlowStart .flowMapping
    | ']' => s.lexFlowEnd .flowSequenceEnd
    | '\x7d' => s.lexFlowEnd .flowMappingEnd
    | ',' => s.lexFlowEntry
    | '*' => s.lexAnchor .reference
    | '&' => s.lexAnchor .anchor
    | '!' => s.lexTag
    | '\x27' => s.lexQuotedText true
    | '"' => s.lexQuotedText false
    | '-' => if isSpaceOrEnd next then s.lexBlockEntry else s.lexPlainText
    | '?' => if isSpaceOrEnd next then s.lexKey else s.lexPlainText
    | ':' => if s.isValueMark then s.lexValue else s.lexPlainText
    | '|' => if s.inFlow then s.lexPlainText else s.lexBlockText true
    | '>' => if s.inFlow then s.lexPlainText else s.lexBlockText false
    | '%' | '@' | '\x60' => fail (.unexpectedCharacter x) s.mark
    | _ => s.lexPlainText

/-- Goes on until the first token found can be handed out; `fuel` bounds the steps. -/
def settle : Nat → Lexer → Except Fault Lexer
  | 0, s => .ok s
  | fuel + 1, s => do
    if s.queue.isEmpty then (← s.step).settle fuel
    else
      let s ← s.expireKeys
      if s.keys.any fun k => k.possible && k.token = s.delivered then (← s.step).settle fuel
      else return s

end Lexer

/-- The tokens of a text, and what is at fault after them. -/
structure Tokens where
  tokens : List Token := []
  fault : Option Fault := none
deriving Inhabited

/-- Hands out tokens to the end of the stream; `fuel` bounds them, and the steps to each. -/
def tokensFrom : Nat → Lexer → Tokens
  | 0, _ => {}
  | fuel + 1, s =>
    match s.settle fuel with
    | .error fault => { fault := some fault }
    | .ok s => match s.queue with
      | [] => {}
      | t :: queue =>
        if t.kind = .streamEnd then { tokens := [t] }
        else
          let rest := tokensFrom fuel { s with queue, delivered := s.delivered + 1 }
          { rest with tokens := t :: rest.tokens }

/-- The tokens of a text.  A character is the reason for at most five tokens: a key and a value,
the start and the end of two collections. -/
def tokens (text : String) : Tokens :=
  let c := Cursor.ofText text
  tokensFrom (5 * c.left + 5) { cursor := c }

end BuilderControl.Yaml
