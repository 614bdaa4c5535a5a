import BuilderControl.Yaml.Fault

/-! # Places in YAML text

A cursor is what is left of a text with the place at which it starts.  Past its end there are only
NUL characters, and a NUL ends the text, so the end needs no case of its own. -/

namespace BuilderControl.Yaml

def isBreak (c : Char) : Bool := c = '\n' || c = '\r'

def isBlank (c : Char) : Bool := c = ' ' || c = '\t'

/-- Blanks and line breaks. -/
def isSpace (c : Char) : Bool := isBlank c || isBreak c

/-- The end of the text. -/
def isEnd (c : Char) : Bool := c = '\x00'

def isBreakOrEnd (c : Char) : Bool := isBreak c || isEnd c

def isSpaceOrEnd (c : Char) : Bool := isSpace c || isEnd c

/-- Characters of anchors and of tag handles. -/
def isWord (c : Char) : Bool := c.isAlphanum || c = '_' || c = '-'

/-- Characters that flow collections are made of. -/
def isFlow (c : Char) : Bool := c ∈ [',', '[', ']', '\x7b', '\x7d']

/-- The place after a character. -/
def Mark.after (m : Mark) (c : Char) : Mark :=
  if c = '\n' then ⟨m.line + 1, 0⟩ else ⟨m.line, m.column + 1⟩

structure Cursor where
  rest : List Char
  /-- How many characters are left. -/
  left : Nat
  mark : Mark := {}
  left_eq : left = rest.length := by rfl

instance : Inhabited Cursor := ⟨{ rest := [], left := 0 }⟩

namespace Cursor

/-- The start of a text. -/
def ofText (text : String) : Cursor :=
  let rest := text.toList.takeWhile fun c => !isEnd c
  { rest, left := rest.length }

/-- A character further on. -/
def ahead (c : Cursor) (n : Nat) : Char := c.rest.getD n '\x00'

/-- The next character. -/
def char (c : Cursor) : Char := c.ahead 0

def atEnd (c : Cursor) : Bool := isEnd c.char

def column (c : Cursor) : Nat := c.mark.column

/-- Passes over characters, which are the next ones. -/
def past (c : Cursor) (run : List Char) : Cursor where
  rest := c.rest.drop run.length
  left := c.left - run.length
  mark := run.foldl Mark.after c.mark
  left_eq := by simp [c.left_eq]

def drop (c : Cursor) (n : Nat) : Cursor := c.past (c.rest.take n)

def next (c : Cursor) : Cursor := c.drop 1

/-- The next characters as long as they are of a kind, and what follows them. -/
def span (p : Char → Bool) (c : Cursor) : List Char × Cursor :=
  let run := c.rest.takeWhile p
  (run, c.past run)

def dropWhile (p : Char → Bool) (c : Cursor) : Cursor := (c.span p).2

def dropBlanks (c : Cursor) : Cursor := c.dropWhile isBlank

/-- Passes over a comment, if there is one. -/
def dropComment (c : Cursor) : Cursor :=
  if c.char = '#' then c.dropWhile fun x => !isBreak x else c

/-- Passes over a line break, if there is one. -/
def dropBreak (c : Cursor) : Cursor :=
  if c.char = '\r' && c.ahead 1 = '\n' then c.drop 2
  else if isBreak c.char then c.next
  else c

/-- Whether three of these characters stand at the start of a line, with nothing attached. -/
def atMarker (c : Cursor) (x : Char) : Bool :=
  c.column = 0 && c.rest.take 3 = [x, x, x] && isSpaceOrEnd (c.ahead 3)

/-- Whether a document starts or ends here. -/
def atDocumentMark (c : Cursor) : Bool := c.atMarker '-' || c.atMarker '.'

end Cursor

/-- How many line breaks there are; a carriage return and a line feed are one. -/
def countBreaks : List Char → Nat
  | '\r' :: '\n' :: cs => countBreaks cs + 1
  | c :: cs => (if isBreak c then 1 else 0) + countBreaks cs
  | [] => 0

end BuilderControl.Yaml
