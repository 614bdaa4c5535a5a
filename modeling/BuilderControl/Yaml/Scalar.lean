import BuilderControl.Text.Numeral
import BuilderControl.Yaml.Cursor

/-! # Scalars in YAML text

Text is quoted, plain, or a block of indented lines.  Between words, one line break folds into a
space and each further one counts; blanks around a break are dropped. -/

namespace BuilderControl.Yaml

/-- Blanks and line breaks between two words. -/
structure Gap where
  /-- Blanks before the first line break. -/
  blanks : List Char := []
  breaks : Nat := 0
deriving DecidableEq, Inhabited

namespace Gap

def ofRun (run : List Char) : Gap := ⟨run.takeWhile isBlank, countBreaks run⟩

/-- Folds a gap into text. -/
def text (g : Gap) : List Char :=
  match g.breaks with
  | 0 => g.blanks
  | 1 => [' ']
  | n + 2 => List.replicate (n + 1) '\n'

end Gap

/-! ### Quoted text -/

/-- The character of an escape with a number of hexadecimal digits. -/
def hexEscape (count : Nat) (cs : List Char) : Except FaultKind (Char × Nat) :=
  let digits := cs.take count
  if digits.length < count then .error .escapeDigits
  else match Text.natural 16 digits with
    | none => .error .escapeDigits
    | some n =>
      if h : n.isValidChar then .ok (Char.ofNatAux n h, count + 1) else .error .escapeCodePoint

/-- What stands for a single character after a backslash. -/
def shortEscapes : List (Char × Char) :=
  [('0', '\x00'), ('a', '\x07'), ('b', '\x08'), ('t', '\t'), ('\t', '\t'), ('n', '\n'),
   ('v', '\x0b'), ('f', '\x0c'), ('r', '\r'), ('e', '\x1b'), (' ', ' '), ('"', '"'),
   ('\x27', '\x27'), ('\\', '\\'), ('N', '\u0085'), ('_', '\u00a0'), ('L', '\u2028'),
   ('P', '\u2029')]

/-- The character of an escape, from what follows the backslash, and how many characters that
takes. -/
def escapedChar : List Char → Except FaultKind (Char × Nat)
  | 'x' :: cs => hexEscape 2 cs
  | 'u' :: cs => hexEscape 4 cs
  | 'U' :: cs => hexEscape 8 cs
  | c :: _ => match shortEscapes.lookup c with
    | some x => .ok (x, 1)
    | none => .error .unknownEscape
  | [] => .error .unknownEscape

/-- A part of quoted text without blanks. -/
structure QuotedWord where
  text : List Char
  /-- A line break after it was escaped. -/
  joined : Bool
  cursor : Cursor

/-- Reads up to a blank, a line break or the closing quote; `fuel` bounds the characters. -/
def quotedWord (single : Bool) : Nat → Cursor → Except FaultKind QuotedWord
  | 0, c => .ok ⟨[], false, c⟩
  | fuel + 1, c =>
    let take (x : Char) (n : Nat) : Except FaultKind QuotedWord :=
      (quotedWord single fuel (c.drop n)).map fun w => { w with text := x :: w.text }
    let stop : Except FaultKind QuotedWord := .ok ⟨[], false, c⟩
    match c.rest with
    | [] => stop
    | x :: cs =>
      if isSpace x then stop
      else if single then
        if x ≠ '\x27' then take x 1
        else if cs.head? = some '\x27' then take x 2
        else stop
      else if x = '"' then stop
      else if x ≠ '\\' then take x 1
      else if cs.head?.any isBreak then .ok ⟨[], true, c.next.dropBreak⟩
      else match escapedChar cs with
        | .error e => .error e
        | .ok (y, n) => take y (n + 1)

/-- Reads quoted text after its opening quote; `fuel` bounds the words. -/
def quotedFrom (single : Bool) : Nat → Cursor → Except FaultKind (List Char × Cursor)
  | 0, _ => .error .quotedEnd
  | fuel + 1, c => do
    if c.atDocumentMark then throw .quotedDocumentMark
    if c.atEnd then throw .quotedEnd
    let word ← quotedWord single c.left c
    let c := word.cursor
    if c.char = (if single then '\x27' else '"') then return (word.text, c.next)
    let (run, c) := c.span isSpace
    let gap := Gap.ofRun run
    let between := if word.joined then List.replicate gap.breaks '\n' else gap.text
    let (more, c) ← quotedFrom single fuel c
    return (word.text ++ between ++ more, c)

/-- Reads quoted text. -/
def quotedText (single : Bool) (c : Cursor) : Except FaultKind (String × Cursor) :=
  (quotedFrom single (c.left + 1) c.next).map fun (text, c) => (String.ofList text, c)

/-! ### Plain text -/

/-- A part of plain text without blanks. -/
def plainWord (inFlow : Bool) : List Char → List Char
  | [] => []
  | c :: cs =>
    let next := cs.headD '\x00'
    if isSpace c then []
    else if c = ':' && (isSpaceOrEnd next || (inFlow && isFlow next)) then []
    else if inFlow && isFlow c then []
    else c :: plainWord inFlow cs

/-- Whether a tab is used for indentation after a line break. -/
def hasIndentingTab (indent : Int) : Bool → Mark → List Char → Bool
  | _, _, [] => false
  | broken, m, c :: cs =>
    (broken && c = '\t' && m.column < indent) ||
      hasIndentingTab indent (broken || isBreak c) (m.after c) cs

/-- Plain text as read. -/
structure PlainText where
  text : List Char
  /-- Line breaks come after it. -/
  broken : Bool
  cursor : Cursor

/-- Reads plain text after a gap, which counts only if more text follows; `fuel` bounds the words. -/
def plainFrom (inFlow : Bool) (indent : Int) : Nat → Gap → Cursor → Except FaultKind PlainText
  | 0, gap, c => .ok ⟨[], gap.breaks ≠ 0, c⟩
  | fuel + 1, gap, c =>
    if c.atDocumentMark || c.char = '#' then .ok ⟨[], gap.breaks ≠ 0, c⟩
    else
      let word := plainWord inFlow c.rest
      let before := if word.isEmpty then [] else gap.text ++ word
      let c := c.past word
      if !isSpace c.char then .ok ⟨before, word.isEmpty && gap.breaks ≠ 0, c⟩
      else
        let (run, after) := c.span isSpace
        let gap := Gap.ofRun run
        if hasIndentingTab indent false c.mark run then .error .plainTab
        else if !inFlow && after.column < indent then .ok ⟨before, gap.breaks ≠ 0, after⟩
        else (plainFrom inFlow indent fuel gap after).map fun more =>
          { more with text := before ++ more.text }

/-- Reads plain text in a block collection of some indentation. -/
def plainText (inFlow : Bool) (indent : Int) (c : Cursor) : Except FaultKind PlainText :=
  plainFrom inFlow (indent + 1) (c.left + 1) {} c

/-! ### Blocks -/

/-- What becomes of the line breaks at the end of a block. -/
inductive Chomping where
  | strip | clip | keep
deriving DecidableEq, Inhabited

def chomping? : Char → Option Chomping
  | '+' => some .keep
  | '-' => some .strip
  | _ => none

structure BlockHeader where
  chomping : Chomping
  /-- Indentation relative to what is around the block, if it is stated. -/
  increment : Option Nat
  cursor : Cursor

/-- The digit for the indentation, if it stands here. -/
def blockIncrement (c : Cursor) : Except FaultKind (Option Nat × Cursor) :=
  if c.char = '0' then .error .blockIndentZero
  else if c.char.isDigit then .ok (some (c.char.toNat - '0'.toNat), c.next)
  else .ok (none, c)

/-- Reads the first line of a block, without its indicator. -/
def blockHeader (c : Cursor) : Except FaultKind BlockHeader := do
  let (chomping, increment, c) ← match chomping? c.char with
    | some chomping => do
      let (increment, c) ← blockIncrement c.next
      pure (chomping, increment, c)
    | none => do
      let (increment, c) ← blockIncrement c
      match increment, chomping? c.char with
      | some n, some chomping => pure (chomping, some n, c.next)
      | increment, _ => pure (Chomping.clip, increment, c)
  let c := c.dropBlanks.dropComment
  if !isBreakOrEnd c.char then throw .blockHeaderEnd
  return ⟨chomping, increment, c.dropBreak⟩

/-- Passes over indentation and empty lines; gives the number of lines and the deepest column.
Without an indentation all spaces are passed over.  `fuel` bounds the lines. -/
def emptyLines (indent : Option Nat) : Nat → Cursor → Except Fault (Nat × Nat × Cursor)
  | 0, c => .ok (0, c.column, c)
  | fuel + 1, c =>
    let spaces := c.rest.takeWhile (· = ' ')
    let c := c.past (match indent with
      | none => spaces
      | some n => spaces.take (n - c.column))
    if c.char = '\t' && indent.all (c.column < ·) then .error ⟨.blockTab, c.mark⟩
    else if isBreak c.char then
      (emptyLines indent fuel c.dropBreak).map fun (lines, deepest, after) =>
        (lines + 1, max c.column deepest, after)
    else .ok (0, c.column, c)

/-- Reads the lines of a block.  `last` says whether the line before starts with a blank, if there is
one, and `gap` counts the line breaks since; `fuel` bounds the lines. -/
def blockLines (literal : Bool) (chomping : Chomping) (indent : Nat) :
    Nat → (last : Option Bool) → (gap : Nat) → Cursor → Except Fault (List Char × Cursor)
  | 0, _, _, c => .ok ([], c)
  | fuel + 1, last, gap, c =>
    if c.column ≠ indent || c.atEnd then
      .ok (List.replicate (match chomping with
        | .strip => 0
        | .clip => if last.isSome then 1 else 0
        | .keep => gap) '\n', c)
    else
      let blank := isBlank c.char
      let folds := !literal && last = some false && !blank
      let between := if folds then (Gap.mk [] gap).text else List.replicate gap '\n'
      let (line, c) := c.span fun x => !isBreak x
      if c.atEnd then .ok (between ++ line, c)
      else do
        let (lines, _, c) ← emptyLines (some indent) (c.left + 1) c.dropBreak
        let (more, c) ← blockLines literal chomping indent fuel (some blank) (lines + 1) c
        return (between ++ line ++ more, c)

/-- A block as read: where its first line starts, and what follows it. -/
structure BlockText where
  text : String
  mark : Mark
  cursor : Cursor

/-- Reads a block in a block collection of some indentation. -/
def blockText (literal : Bool) (parent : Int) (c : Cursor) : Except Fault BlockText := do
  let header ← (blockHeader c.next).mapError (⟨·, c.mark⟩)
  let stated : Option Nat :=
    header.increment.map fun n => if parent < 0 then n else parent.toNat + n
  let (lines, deepest, c) ← emptyLines stated (header.cursor.left + 1) header.cursor
  let indent := stated.getD (max deepest (max (parent + 1).toNat 1))
  let (text, after) ← blockLines literal header.chomping indent (c.left + 1) none lines c
  return ⟨String.ofList text, c.mark, after⟩

end BuilderControl.Yaml
