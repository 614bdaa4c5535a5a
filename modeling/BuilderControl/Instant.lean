/-! # Points in time

An instant is read from a date, a time and an offset from UTC, and it is written in UTC to the
second.  Reading is lenient: numbers may be short, blanks may stand between the parts, and fractions
of a second are dropped. -/

namespace BuilderControl

/-- A second of UTC; a leap second is the second 60 of its minute. -/
structure Instant where
  year : Int
  month : Nat
  day : Nat
  hour : Nat
  minute : Nat
  second : Nat
deriving DecidableEq, Inhabited

namespace Instant

inductive Fault where
  | tooShort | tooLong | invalid | outOfRange | impossible
deriving DecidableEq, Inhabited

def Fault.message : Fault → String
  | .tooShort => "premature end of input"
  | .tooLong => "trailing input"
  | .invalid => "input contains invalid characters"
  | .outOfRange => "input is out of range"
  | .impossible => "no possible date and time matching input"

/-! ### Calendar -/

def isLeapYear (year : Int) : Bool :=
  year % 4 = 0 ∧ (year % 100 ≠ 0 ∨ year % 400 = 0)

def daysInMonth (year : Int) (month : Nat) : Nat :=
  if month = 2 then if isLeapYear year then 29 else 28
  else if month = 4 ∨ month = 6 ∨ month = 9 ∨ month = 11 then 30
  else 31

/-- The day after a date. -/
def nextDay : Int × Nat × Nat → Int × Nat × Nat
  | (y, m, d) =>
    if d < daysInMonth y m then (y, m, d + 1)
    else if m < 12 then (y, m + 1, 1)
    else (y + 1, 1, 1)

/-- The day before a date. -/
def previousDay : Int × Nat × Nat → Int × Nat × Nat
  | (y, m, d) =>
    if 1 < d then (y, m, d - 1)
    else if 1 < m then (y, m - 1, daysInMonth y (m - 1))
    else (y - 1, 12, 31)

/-- The same instant in UTC, when `minutes` is the offset of the clock that showed it; an offset
is less than a day. -/
def toUtc (t : Instant) (minutes : Int) : Instant :=
  let clock : Int := t.hour * 60 + t.minute - minutes
  let (y, m, d) :=
    if clock < 0 then previousDay (t.year, t.month, t.day)
    else if 1440 ≤ clock then nextDay (t.year, t.month, t.day)
    else (t.year, t.month, t.day)
  let clock := (clock % 1440).toNat
  ⟨y, m, d, clock / 60, clock % 60, t.second⟩

/-! ### Writing -/

def padded (width n : Nat) : String :=
  let digits := Nat.toDigits 10 n
  String.ofList (List.replicate (width - digits.length) '0' ++ digits)

def yearText (year : Int) : String :=
  if 0 ≤ year ∧ year ≤ 9999 then padded 4 year.toNat
  else (if year < 0 then "-" else "+") ++ padded 4 year.natAbs

def text (t : Instant) : String :=
  yearText t.year ++ "-" ++ padded 2 t.month ++ "-" ++ padded 2 t.day ++ "T" ++ padded 2 t.hour ++ ":"
    ++ padded 2 t.minute ++ ":" ++ padded 2 t.second ++ "Z"

/-! ### Reading -/

def isBlank (c : Char) : Bool :=
  c == ' ' || (9 ≤ c.toNat && c.toNat ≤ 13) || c.toNat == 0x85 || c.toNat == 0xa0 ||
    c.toNat == 0x1680 || (0x2000 ≤ c.toNat && c.toNat ≤ 0x200a) || c.toNat == 0x2028 ||
    c.toNat == 0x2029 || c.toNat == 0x202f || c.toNat == 0x205f || c.toNat == 0x3000

abbrev Reader (α : Type) := List Char → Except Fault (α × List Char)

/-- A number of at most `width` digits; no number has more than 18 digits that count. -/
def number (width : Nat) : Reader Nat := fun cs =>
  let digits := (cs.take width).takeWhile Char.isDigit
  if cs.isEmpty then .error .tooShort
  else if digits.isEmpty then .error .invalid
  else
    let value := digits.foldl (fun n c => n * 10 + (c.toNat - '0'.toNat)) 0
    if Nat.pow 2 63 ≤ value then .error .outOfRange else .ok (value, cs.drop digits.length)

/-- A number between two bounds, after blanks. -/
def field (low high : Nat) : Reader Nat := fun cs => do
  let (n, rest) ← number 2 (cs.dropWhile isBlank)
  if low ≤ n ∧ n ≤ high then return (n, rest) else .error .outOfRange

/-- A year; with a sign it may have any number of digits. -/
def yearField : Reader Int := fun cs => do
  let (n, rest) ← match cs.dropWhile isBlank with
    | '-' :: cs => do
      let (n, rest) ← number cs.length cs
      pure (-(n : Int), rest)
    | '+' :: cs => do
      let (n, rest) ← number cs.length cs
      pure ((n : Int), rest)
    | cs => do
      let (n, rest) ← number 4 cs
      pure ((n : Int), rest)
  if -(Nat.pow 2 31) ≤ n ∧ n < Nat.pow 2 31 then return (n, rest) else .error .outOfRange

/-- A separator, after blanks. -/
def separator (c : Char) : Reader Unit := fun cs =>
  match cs.dropWhile isBlank with
  | [] => .error .tooShort
  | x :: rest => if x = c then .ok ((), rest) else .error .invalid

/-- The mark between date and time. -/
def dateMark : Reader Unit
  | [] => .error .tooShort
  | c :: rest => if c = 't' ∨ c = 'T' ∨ c = ' ' then .ok ((), rest) else .error .invalid

/-- A fraction of a second, which is dropped. -/
def fraction : Reader Unit
  | '.' :: cs => do
    let (_, rest) ← number 9 cs
    return ((), rest.dropWhile Char.isDigit)
  | cs => .ok ((), cs)

/-- Two digits. -/
def twoDigits : Reader Nat
  | a :: b :: rest =>
    if a.isDigit ∧ b.isDigit then
      .ok ((a.toNat - '0'.toNat) * 10 + (b.toNat - '0'.toNat), rest)
    else .error .invalid
  | [c] => .error (if c.utf8Size = 1 then .tooShort else .invalid)
  | [] => .error .tooShort

/-- An offset from UTC in minutes. -/
def offset : Reader Int := fun cs =>
  match cs with
  | [] => .error .tooShort
  | 'Z' :: rest | 'z' :: rest => .ok (0, rest)
  | sign :: rest =>
    if sign = '+' ∨ sign = '-' ∨ sign = '−' then do
      let (hours, rest) ← twoDigits rest
      let (minutes, rest) ← twoDigits (rest.dropWhile fun c => c == ':' || isBlank c)
      if 60 ≤ minutes then .error .outOfRange
      let total : Int := hours * 60 + minutes
      return (if sign = '+' then total else -total, rest)
    else .error .invalid

/-- An offset, which may also be the name of UTC. -/
def zone : Reader Int := fun cs =>
  match cs.dropWhile isBlank with
  | u :: t :: c :: rest =>
    if u.toLower = 'u' ∧ t.toLower = 't' ∧ c.toLower = 'c' then .ok (0, rest)
    else offset (u :: t :: c :: rest)
  | cs => offset cs

/-- Whether the calendar reaches a year. -/
def reaches (year : Int) : Bool := -262143 ≤ year ∧ year ≤ 262142

/-- Reads an instant. -/
def read (text : String) : Except Fault Instant := do
  let cs := text.toList
  let (year, cs) ← yearField cs
  let (_, cs) ← separator '-' cs
  let (month, cs) ← field 1 12 cs
  let (_, cs) ← separator '-' cs
  let (day, cs) ← field 1 31 cs
  let (_, cs) ← dateMark cs
  let (hour, cs) ← field 0 23 cs
  let (_, cs) ← separator ':' cs
  let (minute, cs) ← field 0 59 cs
  let (_, cs) ← separator ':' cs
  let (second, cs) ← field 0 60 cs
  let (_, cs) ← fraction cs
  let (minutes, cs) ← zone cs
  if !(cs.all isBlank) then .error .tooLong
  if daysInMonth year month < day ∨ minutes ≤ -1440 ∨ 1440 ≤ minutes ∨ !reaches year then
    .error .outOfRange
  let t := (Instant.mk year month day hour minute second).toUtc minutes
  if reaches t.year then return t else .error .impossible

end Instant

end BuilderControl
