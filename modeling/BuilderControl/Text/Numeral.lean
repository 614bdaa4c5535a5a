import BuilderControl.Binary64

/-! # Numerals

Text that reads as a whole as an integer or as a floating point number.  Signs are optional, and a
floating point numeral may also be a word for infinity or for no number at all. -/

namespace BuilderControl.Text

/-- Value of a digit in any base up to sixteen. -/
def digitOf (c : Char) : Option Nat :=
  if c.isDigit then some (c.toNat - '0'.toNat)
  else if 'a' ≤ c ∧ c ≤ 'f' then some (c.toNat - 'a'.toNat + 10)
  else if 'A' ≤ c ∧ c ≤ 'F' then some (c.toNat - 'A'.toNat + 10)
  else none

/-- The number that digits of a base stand for; there has to be one. -/
def natural (base : Nat) (digits : List Char) : Option Nat :=
  if digits.isEmpty then none
  else digits.foldl (fun n c => do
    let n ← n
    let d ← digitOf c
    if d < base then some (n * base + d) else none) (some 0)

/-- Takes an optional sign off; `true` stands for minus. -/
def splitSign : List Char → Bool × List Char
  | '-' :: cs => (true, cs)
  | '+' :: cs => (false, cs)
  | cs => (false, cs)

/-- An integer between two bounds. -/
def integer (base : Nat) (low high : Int) (cs : List Char) : Option Int := do
  let (negative, digits) := splitSign cs
  let n ← natural base digits
  let i : Int := if negative then -n else n
  if low ≤ i ∧ i ≤ high then some i else none

/-- An integer of 64 bits with a sign. -/
def signed64 (base : Nat) (cs : List Char) : Option Int :=
  integer base (-(Nat.pow 2 63)) (Nat.pow 2 63 - 1) cs

/-- An integer of 64 bits without a sign; a plus is allowed. -/
def unsigned64 (base : Nat) (cs : List Char) : Option Int :=
  match cs with
  | '-' :: _ => none
  | cs => integer base 0 (Nat.pow 2 64 - 1) cs

/-- Words that are floating point numerals. -/
def floatWord (cs : List Char) : Option Nat :=
  let word := String.ofList (cs.map Char.toLower)
  if word = "inf" ∨ word = "infinity" then some Binary64.infinityBits
  else if word = "nan" then some (Binary64.infinityBits + Nat.pow 2 51)
  else none

/-- The exponent after the digits of a numeral. -/
def floatExponent : List Char → Option Int
  | [] => some 0
  | e :: cs =>
    if e = 'e' ∨ e = 'E' then
      let (negative, digits) := splitSign cs
      if digits.all Char.isDigit then
        (natural 10 digits).map fun n =>
          if negative then -(min n 100000 : Nat) else (min n 100000 : Nat)
      else none
    else none

/-- A floating point numeral, by its bits. -/
def float (cs : List Char) : Option UInt64 :=
  let (negative, body) := splitSign cs
  match floatWord body with
  | some bits => some (Binary64.ofMagnitude negative bits)
  | none => do
    let whole := body.takeWhile Char.isDigit
    let rest := body.drop whole.length
    let (fraction, tail) := match rest with
      | '.' :: rest => (rest.takeWhile Char.isDigit, rest.dropWhile Char.isDigit)
      | rest => ([], rest)
    let exponent ← floatExponent tail
    let digits ← natural 10 (whole ++ fraction)
    return Binary64.ofDecimal negative digits (exponent - fraction.length)

end BuilderControl.Text
