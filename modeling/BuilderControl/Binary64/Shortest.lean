import BuilderControl.Binary64

/-! # Shortest decimal text of a double

The shortest decimal of a double is the one with the fewest digits among those nearer to it than
to any other double; of several with equally many digits, the nearest.  `Layout` says how such
digits are laid out. -/

namespace BuilderControl.Binary64

/-- A decimal number `digits · 10^exponent`. -/
structure Decimal where
  digits : Nat
  exponent : Int
deriving DecidableEq

/-- Numbers that round to a double, as a closed or open interval on the scale `1 / den`. -/
structure RoundingInterval where
  low : Nat
  value : Nat
  high : Nat
  den : Nat
  closed : Bool

/-- The interval of a finite nonzero double: half way to its neighbours, ends included iff its
significand is even. -/
def roundingInterval (bits : UInt64) : RoundingInterval :=
  let (m, q) := magnitude bits
  let binade := m = Nat.pow 2 52 ∧ -1074 < q
  let up := if 0 ≤ q then Nat.pow 2 q.toNat else 1
  let den := if 0 ≤ q then 1 else Nat.pow 2 (-q).toNat
  { low := (4 * m - if binade then 1 else 2) * up
    value := 4 * m * up
    high := (4 * m + 2) * up
    den := 4 * den
    closed := m % 2 = 0 }

/-- Whether `digits · 10^exponent` lies in the interval. -/
def RoundingInterval.holds (i : RoundingInterval) (d : Decimal) : Bool :=
  let (num, den) :=
    if 0 ≤ d.exponent then (d.digits * Nat.pow 10 d.exponent.toNat * i.den, 1)
    else (d.digits * i.den, Nat.pow 10 (-d.exponent).toNat)
  if i.closed then i.low * den ≤ num ∧ num ≤ i.high * den else i.low * den < num ∧ num < i.high * den

/-- The decimal with unit `10^exponent` that is nearest to the value, if it lies in the interval;
else the other neighbour on that grid, if that one does. -/
def RoundingInterval.onGrid (i : RoundingInterval) (exponent : Int) : Option Decimal :=
  let (num, den) :=
    if 0 ≤ exponent then (i.value, i.den * Nat.pow 10 exponent.toNat)
    else (i.value * Nat.pow 10 (-exponent).toNat, i.den)
  let below := num / den
  let nearer := roundDiv num den
  let other := if nearer = below then below + 1 else below
  if i.holds ⟨nearer, exponent⟩ then some ⟨nearer, exponent⟩
  else if i.holds ⟨other, exponent⟩ then some ⟨other, exponent⟩
  else none

/-- Drops trailing zeros of the digits. -/
def Decimal.trim : Nat → Decimal → Decimal
  | 0, d => d
  | fuel + 1, d =>
    if d.digits ≠ 0 ∧ d.digits % 10 = 0 then trim fuel ⟨d.digits / 10, d.exponent + 1⟩ else d

/-- Searches the grids from coarse to fine. -/
def RoundingInterval.search (i : RoundingInterval) : Nat → Int → Option Decimal
  | 0, _ => none
  | fuel + 1, exponent => (i.onGrid exponent).or (i.search fuel (exponent - 1))

/-- The shortest decimal of a finite magnitude. -/
def shortest (bits : UInt64) : Decimal :=
  if isZero bits then ⟨0, 0⟩ else
    let i := roundingInterval bits
    let top : Int := (decimalLength (i.value / i.den) : Int)
    let start := if i.value / i.den = 0 then -(decimalLength (i.den / i.value) : Int) + 1 else top
    ((i.search 40 start).getD ⟨i.value / i.den, 0⟩).trim 40

/-- Layout of decimal digits. -/
structure Layout where
  /-- The decimal point may stand at most this far right of the first digit. -/
  widest : Int := 16
  /-- The decimal point may stand at most this far left of the first digit. -/
  narrowest : Int := 4
  /-- What stands before a positive exponent. -/
  plus : String := "+"

/-- Digits around a decimal point that stands `point` places right of the first digit. -/
def positional (digits : String) (point : Int) : String :=
  let count : Int := digits.length
  if point ≤ 0 then "0." ++ String.ofList (List.replicate (-point).toNat '0') ++ digits
  else if count ≤ point then
    digits ++ String.ofList (List.replicate (point - count).toNat '0') ++ ".0"
  else
    String.ofList (digits.toList.take point.toNat) ++ "." ++
      String.ofList (digits.toList.drop point.toNat)

/-- One digit before the point, then the exponent. -/
def scientific (layout : Layout) (digits : String) (point : Int) : String :=
  let power := point - 1
  let tail := digits.toList.drop 1
  String.ofList (digits.toList.take 1) ++ (if tail.isEmpty then "" else "." ++ String.ofList tail)
    ++ "e" ++ (if power < 0 then toString power else layout.plus ++ toString power)

/-- Text of a finite double. -/
def render (layout : Layout) (bits : UInt64) : String :=
  let d := shortest bits
  let digits := toString d.digits
  let point : Int := digits.length + d.exponent
  let text :=
    if isZero bits then "0.0"
    else if -layout.narrowest ≤ point ∧ point ≤ layout.widest then positional digits point
    else scientific layout digits point
  if isNegative bits then "-" ++ text else text

/-- Text of any double without an exponent, whatever its size. -/
def renderPlain (bits : UInt64) : String :=
  if isFinite bits then render ⟨400, 400, ""⟩ bits
  else if infinityBits < magnitudeBits bits then "NaN"
  else if isNegative bits then "-inf" else "inf"

end BuilderControl.Binary64
