import BuilderControl.Json.Located

/-! # Reading JSON text

`Located.read` reads one value and what follows it into a tree; it never fails, since faults are
part of the tree.  `Json.parse` gives the document of a text that holds just one value.

The decimal part of a number is a significand of at most 64 bits and a power of ten; the double is
the significand, rounded, times or divided by the power, rounded again. -/

namespace BuilderControl.Json

/-- What is left of a text, and how many bytes came before it. -/
structure Cursor where
  rest : List Char
  offset : Nat
deriving Inhabited

namespace Cursor

def next (c : Cursor) : Cursor :=
  match c.rest with
  | [] => c
  | x :: xs => ⟨xs, c.offset + x.utf8Size⟩

def isBlank (x : Char) : Bool := x == ' ' || x == '\n' || x == '\t' || x == '\r'

def skipBlanks (c : Cursor) : Cursor :=
  ⟨c.rest.dropWhile isBlank, c.offset + (c.rest.takeWhile isBlank).length⟩

/-- A fault at the next byte, counted as if it had been read. -/
def ahead (c : Cursor) (kind : FaultKind) : Fault :=
  ⟨kind, if c.rest.isEmpty then c.offset else c.offset + 1⟩

/-- A fault after what was read so far. -/
def behind (c : Cursor) (kind : FaultKind) : Fault := ⟨kind, c.offset⟩

end Cursor

/-! ### Literals -/

/-- Reads the rest of a literal. -/
def readLiteral (value : Scalar) (start : Nat) : List Char → Cursor → Located × Option Cursor
  | [], c => (.scalar value start c.offset, some c)
  | x :: xs, c =>
    match c.rest with
    | [] =>
      let fault := c.behind .endInValue
      (.unreadable fault (some fault) start, none)
    | y :: _ =>
      if x = y then readLiteral value start xs c.next
      else
        let fault := c.ahead .expectedLiteral
        (.unreadable fault (some fault) start, none)

/-! ### Numbers -/

/-- Digits a significand can still take. -/
def significandLimit : Nat := Nat.pow 2 64

/-- A number as its text says it. -/
structure NumberText where
  negative : Bool
  significand : Nat
  /-- Power of ten the significand is multiplied by. -/
  exponent : Int
  isInteger : Bool

def digitValue (c : Char) : Nat := c.toNat - '0'.toNat

/-- Digits that still fit the significand, with the remaining text and the number of digits
taken. -/
def takeDigits (significand : Nat) (count : Nat) : List Char → Nat × Nat × List Char
  | [] => (significand, count, [])
  | c :: cs =>
    if c.isDigit ∧ significand * 10 + digitValue c < significandLimit then
      takeDigits (significand * 10 + digitValue c) (count + 1) cs
    else (significand, count, c :: cs)

/-- The double of a significand and a power of ten; nothing if it is too large. -/
def scaled (significand : Nat) (exponent : Int) : Option Nat :=
  let power (n : Nat) : Nat × Nat := Binary64.ratio (Binary64.ofDecimal false 1 n)
  let times (bits : Nat) (n : Nat) : Nat :=
    let (a, b) := Binary64.ratio (UInt64.ofNat bits)
    let (p, q) := power n
    Binary64.magnitudeOfRatio (a * p) (b * q)
  let dividedBy (bits : Nat) (n : Nat) : Nat :=
    let (a, b) := Binary64.ratio (UInt64.ofNat bits)
    let (p, q) := power n
    Binary64.magnitudeOfRatio (a * q) (b * p)
  let bits := Binary64.magnitudeOfRatio significand 1
  if 308 < exponent then if bits = 0 then some 0 else none
  else if 0 ≤ exponent then
    let product := times bits exponent.toNat
    if product < Binary64.infinityBits then some product else none
  else
    let rec shrink : Nat → Nat → Nat → Nat
      | 0, bits, _ => bits
      | fuel + 1, bits, n =>
        if n ≤ 308 then dividedBy bits n
        else if bits = 0 then 0
        else shrink fuel (dividedBy bits 308) (n - 308)
    some (shrink 8 bits (-exponent).toNat)

/-- The value of a number, if it is in range. -/
def NumberText.value (n : NumberText) : Option Number :=
  if n.isInteger ∧ n.negative = false then some (.int n.significand)
  else if n.isInteger ∧ 0 < n.significand ∧ n.significand ≤ Nat.pow 2 63 then
    some (.int (-n.significand))
  else (scaled n.significand n.exponent).map fun bits => .float (Binary64.ofMagnitude n.negative bits)

/-- Digits left over after a significand was full. -/
def dropDigits (c : Cursor) : Nat × Cursor :=
  let dropped := (c.rest.takeWhile Char.isDigit).length
  (dropped, ⟨c.rest.drop dropped, c.offset + dropped⟩)

/-- An exponent that no double reaches. -/
def exponentLimit : Nat := Nat.pow 2 31

/-- Either the fault for a wanted and for a skipped number, or the number and what follows it. -/
abbrev NumberReading := Except (Fault × Fault) (NumberText × Cursor)

/-- Reads what stands after the `e` of an exponent. -/
def readExponent (n : NumberText) (c : Cursor) : NumberReading :=
  let (down, c) := match c.rest with
    | '+' :: _ => (false, c.next)
    | '-' :: _ => (true, c.next)
    | _ => (false, c)
  match c.rest with
  | [] => .error (c.behind .endInValue, c.behind .badNumber)
  | x :: _ =>
    if x.isDigit then
      let digits := c.rest.takeWhile Char.isDigit
      let after : Cursor := ⟨c.rest.drop digits.length, c.offset + digits.length⟩
      let power : Nat := min exponentLimit (digits.foldl (fun p d => p * 10 + digitValue d) 0)
      let exponent := if down then n.exponent - power else n.exponent + power
      .ok ({ n with exponent := exponent, isInteger := false }, after)
    else .error (c.ahead .badNumber, c.ahead .badNumber)

/-- Reads what may follow the digits of a fraction or of an integer. -/
def readTail (n : NumberText) (c : Cursor) : NumberReading :=
  match c.rest with
  | 'e' :: _ | 'E' :: _ => readExponent n c.next
  | _ => .ok (n, c)

/-- Reads what stands after a decimal point. -/
def readFraction (n : NumberText) (c : Cursor) : NumberReading :=
  match c.rest with
  | [] => .error (c.behind .endInValue, c.behind .badNumber)
  | x :: _ =>
    if x.isDigit then
      let (significand, count, rest) := takeDigits n.significand 0 c.rest
      let (_, after) := dropDigits ⟨rest, c.offset + count⟩
      readTail { n with
        significand := significand
        exponent := n.exponent - count
        isInteger := false } after
    else .error (c.ahead .badNumber, c.ahead .badNumber)

/-- Reads a number after its sign. -/
def readNumber (negative : Bool) (c : Cursor) : NumberReading :=
  match c.rest with
  | [] => .error (c.behind .endInValue, c.behind .badNumber)
  | x :: rest =>
    if !x.isDigit then .error (c.ahead .badNumber, c.ahead .badNumber)
    else if x = '0' ∧ (rest.head?.any Char.isDigit) then
      .error (c.next.ahead .badNumber, c.next.ahead .badNumber)
    else
      let (significand, count, rest) := takeDigits 0 0 c.rest
      let (dropped, after) := dropDigits ⟨rest, c.offset + count⟩
      let n : NumberText := ⟨negative, significand, dropped, dropped = 0⟩
      match after.rest with
      | '.' :: _ => readFraction n after.next
      | _ => readTail n after

/-! ### Text -/

/-- A string as read: its characters or the first fault of its content, and what follows it or the
fault that ended it. -/
structure StringReading where
  content : Except Fault String
  after : Except Fault Cursor

def hexValue (c : Char) : Option Nat :=
  if c.isDigit then some (c.toNat - '0'.toNat)
  else if 'a' ≤ c ∧ c ≤ 'f' then some (c.toNat - 'a'.toNat + 10)
  else if 'A' ≤ c ∧ c ≤ 'F' then some (c.toNat - 'A'.toNat + 10)
  else none

def hex4Value (a b c d : Char) : Option Nat := do
  let a ← hexValue a
  let b ← hexValue b
  let c ← hexValue c
  let d ← hexValue d
  return ((a * 16 + b) * 16 + c) * 16 + d

def isHighSurrogate (n : Nat) : Bool := 0xd800 ≤ n ∧ n ≤ 0xdbff
def isLowSurrogate (n : Nat) : Bool := 0xdc00 ≤ n ∧ n ≤ 0xdfff

def joinSurrogates (high low : Nat) : Nat := 0x10000 + (high - 0xd800) * 0x400 + (low - 0xdc00)

def simpleEscape : Char → Option Char
  | '"' => some '"'
  | '\\' => some '\\'
  | '/' => some '/'
  | 'b' => some '\x08'
  | 'f' => some '\x0c'
  | 'n' => some '\n'
  | 'r' => some '\r'
  | 't' => some '\t'
  | _ => none

def byteLength (cs : List Char) : Nat := cs.foldl (fun n c => n + c.utf8Size) 0

/-- State of reading a string. -/
structure StringState where
  offset : Nat
  /-- Characters so far, the last one first. -/
  reversed : List Char := []
  /-- The first fault of the content. -/
  fault : Option Fault := none
  /-- A high surrogate that waits for its other half. -/
  high : Option Nat := none

namespace StringState

def finish (s : StringState) : Except Fault String :=
  match s.fault with
  | some f => .error f
  | none => .ok (String.ofList s.reversed.reverse)

def blame (s : StringState) (kind : FaultKind) (offset : Nat) : StringState :=
  { s with fault := s.fault.or (some ⟨kind, offset⟩), high := none }

/-- Marks a high surrogate that is not followed by an escape; the fault lies after the first byte
that is none. -/
def settle (s : StringState) (offset : Nat) : StringState :=
  if s.high.isSome then s.blame .unpairedEscape offset else s

def push (s : StringState) (c : Char) (bytes : Nat) : StringState :=
  { s with reversed := c :: s.reversed, offset := s.offset + bytes }

/-- Takes the code unit of a six byte escape. -/
def unit (s : StringState) (n : Nat) : StringState :=
  let s := { s with offset := s.offset + 6 }
  match s.high with
  | some high =>
    if isLowSurrogate n then
      { s with reversed := Char.ofNat (joinSurrogates high n) :: s.reversed, high := none }
    else s.blame .loneSurrogate s.offset
  | none =>
    if isLowSurrogate n then s.blame .loneSurrogate s.offset
    else if isHighSurrogate n then { s with high := some n }
    else { s with reversed := Char.ofNat n :: s.reversed }

end StringState

/-- Reads the characters of a string up to its closing quote. -/
def readString (s : StringState) : List Char → StringReading
  | [] => stop s .endInString s.offset
  | '"' :: rest =>
    let s := s.settle (s.offset + 1)
    ⟨s.finish, .ok ⟨rest, s.offset + 1⟩⟩
  | '\\' :: 'u' :: a :: b :: c :: d :: rest =>
    match hex4Value a b c d with
    | some n => readString (s.unit n) rest
    | none => badHex s (a :: b :: c :: d :: rest)
  | '\\' :: 'u' :: rest => badHex s rest
  | '\\' :: x :: rest =>
    let s := s.settle (s.offset + 2)
    match simpleEscape x with
    | some y => readString (s.push y 2) rest
    | none => stop s .badEscape (s.offset + 2)
  | '\\' :: [] => stop s .endInString (s.offset + 1)
  | x :: rest =>
    let s := s.settle (s.offset + 1)
    if x.toNat < 0x20 then stop s .controlCharacter (s.offset + 1)
    else readString (s.push x x.utf8Size) rest
where
  /-- The text can not be read on. -/
  stop (s : StringState) (kind : FaultKind) (offset : Nat) : StringReading :=
    ⟨.error (s.fault.getD ⟨kind, offset⟩), .error ⟨kind, offset⟩⟩
  /-- No four hexadecimal digits follow. -/
  badHex (s : StringState) (rest : List Char) : StringReading :=
    if byteLength rest < 4 then stop s .endInString (s.offset + 2 + byteLength rest)
    else stop s .badEscape (s.offset + 6)

/-! ### Values -/

/-- Containers may nest this deep. -/
def depthLimit : Nat := 127

/-- A value that stops the reading. -/
def stopped (fault : Fault) (start : Nat) : Located × Option Cursor :=
  (.unreadable fault (some fault) start, none)

/-- A scalar that was read with its sign or opening quote. -/
def readNumberValue (negative : Bool) (start : Nat) (c : Cursor) : Located × Option Cursor :=
  match readNumber negative c with
  | .error (wanted, skipped) => (.unreadable wanted (some skipped) start, none)
  | .ok (n, after) =>
    match n.value with
    | some v => (.scalar (.num v) start after.offset, some after)
    | none => (.unreadable (after.behind .numberOutOfRange) none start, some after)

def readStringValue (start : Nat) (c : Cursor) : Located × Option Cursor :=
  let reading := readString { offset := c.offset } c.rest
  match reading.content, reading.after with
  | .ok text, .ok after => (.scalar (.str text) start after.offset, some after)
  | .error wanted, .ok after => (.unreadable wanted none start, some after)
  | .error wanted, .error skipped => (.unreadable wanted (some skipped) start, none)
  | .ok _, .error skipped => stopped skipped start

/-- A container, or a fault in its place if it lies too deep. -/
def nested (depth : Nat) (opening : Cursor) (tree : Located) : Located :=
  if depthLimit < depth then .unreadable (opening.ahead .tooDeep) tree.skip opening.offset else tree

mutual
/-- Reads one value. -/
def readValue : Nat → Nat → Cursor → Located × Option Cursor
  | 0, _, c => stopped (c.behind .endInValue) c.offset
  | fuel + 1, depth, c =>
    let c := c.skipBlanks
    match c.rest with
    | [] => stopped (c.ahead .endInValue) c.offset
    | 'n' :: _ => readLiteral .null c.offset ['u', 'l', 'l'] c.next
    | 't' :: _ => readLiteral (.bool true) c.offset ['r', 'u', 'e'] c.next
    | 'f' :: _ => readLiteral (.bool false) c.offset ['a', 'l', 's', 'e'] c.next
    | '-' :: _ => readNumberValue true c.offset c.next
    | '"' :: _ => readStringValue c.offset c.next
    | '[' :: _ =>
      let (items, after) := readItems fuel (depth + 1) true c.next
      (nested (depth + 1) c (.list items c.offset (after.elim 0 Cursor.offset)), after)
    | '\x7b' :: _ =>
      let (members, after) := readMembers fuel (depth + 1) true c.next
      (nested (depth + 1) c (.map members c.offset (after.elim 0 Cursor.offset)), after)
    | x :: _ =>
      if x.isDigit then readNumberValue false c.offset c
      else stopped (c.ahead .expectedValue) c.offset
/-- Reads the items of a list up to its bracket. -/
def readItems : Nat → Nat → Bool → Cursor → List Located × Option Cursor
  | 0, _, _, c => ([(stopped (c.behind .endInList) c.offset).1], none)
  | fuel + 1, depth, first, c =>
    let c := c.skipBlanks
    let halt (fault : Fault) := ([(stopped fault c.offset).1], none)
    let item (c : Cursor) : List Located × Option Cursor :=
      match readValue fuel depth c with
      | (t, none) => ([t], none)
      | (t, some after) =>
        let (ts, stop) := readItems fuel depth false after
        (t :: ts, stop)
    match c.rest with
    | [] => halt (c.ahead .endInList)
    | ']' :: _ => ([], some c.next)
    | x :: _ =>
      if first then item c
      else if x = ',' then
        let c := c.next.skipBlanks
        match c.rest with
        | [] => halt (c.ahead .endInValue)
        | ']' :: _ => halt (c.ahead .trailingComma)
        | _ => item c
      else halt (c.ahead .expectedListEnd)
/-- Reads the members of an object up to its brace. -/
def readMembers : Nat → Nat → Bool → Cursor → List (Except Fault KeyPlace × Located) × Option Cursor
  | 0, _, _, c => ([(.error (c.behind .endInObject), default)], none)
  | fuel + 1, depth, first, c =>
    let c := c.skipBlanks
    let halt (fault : Fault) : List (Except Fault KeyPlace × Located) × Option Cursor :=
      ([(.error fault, default)], none)
    let member (c : Cursor) : List (Except Fault KeyPlace × Located) × Option Cursor :=
      let reading := readString { offset := c.next.offset } c.next.rest
      match reading.after with
      | .error _ =>
        match reading.content with
        | .error wanted => halt wanted
        | .ok _ => halt (c.ahead .endInString)
      | .ok after =>
        let c := after.skipBlanks
        match reading.content with
        | .error wanted => halt wanted
        | .ok key =>
          match c.rest with
          | ':' :: _ =>
            match readValue fuel depth c.next with
            | (t, none) => ([(.ok ⟨key, c.offset, c.offset⟩, t)], none)
            | (t, some after) =>
              let next := after.skipBlanks
              let past := if next.rest.head? = some '\x7d' then next.offset + 1 else next.offset
              let (ms, stop) := readMembers fuel depth false after
              ((.ok ⟨key, c.offset, past⟩, t) :: ms, stop)
          | [] =>
            ([(.ok ⟨key, c.offset, c.offset⟩, (stopped (c.ahead .endInObject) c.offset).1)], none)
          | x :: _ =>
            let colon := if x = '\x7d' then c.offset + 1 else c.offset
            ([(.ok ⟨key, colon, c.offset⟩, (stopped (c.ahead .expectedColon) c.offset).1)], none)
    match c.rest with
    | [] => halt (c.ahead .endInObject)
    | '\x7d' :: _ => ([], some c.next)
    | x :: _ =>
      if first then if x = '"' then member c else halt (c.ahead .keyNotText)
      else if x = ',' then
        let c := c.next.skipBlanks
        match c.rest with
        | [] => halt (c.ahead .endInValue)
        | '"' :: _ => member c
        | '\x7d' :: _ => halt (c.ahead .trailingComma)
        | _ => halt (c.ahead .keyNotText)
      else halt (c.ahead .expectedObjectEnd)
end

/-- A text as read: its value, and the fault of what follows it, if anything but blanks does. -/
structure TextReading where
  value : Located
  trailing : Option Fault

/-- Reads a whole text. -/
def Located.read (text : List Char) : TextReading :=
  let (value, after) := readValue (2 * text.length + 4) 0 ⟨text, 0⟩
  ⟨value, after.bind fun c =>
    let c := c.skipBlanks
    if c.rest.isEmpty then none else some (c.ahead .trailingCharacters)⟩

/-- The document of a text that holds just one value. -/
def parse (text : String) : Except Fault Json := do
  let reading := Located.read text.toList
  let j ← reading.value.toJson
  match reading.trailing with
  | some fault => .error fault
  | none => return j

end BuilderControl.Json
