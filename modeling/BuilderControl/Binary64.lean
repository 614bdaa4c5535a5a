/-! # Binary floating point numbers in exact arithmetic

A finite double is a sign and a magnitude `m · 2^q`.  Everything here works on natural numbers,
so rounding is a division with remainder and nothing depends on the machine's float unit.

* `ofRatio`    the double nearest to a quotient, an exact tie going to the even neighbour
* `ofDecimal`  the double nearest to a decimal number
* `magnitude`  the pair `(m, q)` a bit pattern stands for -/

namespace BuilderControl.Binary64

/-- Weight of the sign bit. -/
def signWeight : Nat := Nat.pow 2 63

/-- Bits of positive infinity, above those of every finite magnitude. -/
def infinityBits : Nat := 0x7ff * Nat.pow 2 52

/-- Bit pattern of a number with the given sign and magnitude bits. -/
def ofMagnitude (negative : Bool) (bits : Nat) : UInt64 :=
  UInt64.ofNat (if negative then signWeight + bits else bits)

/-- Bits without the sign. -/
def magnitudeBits (bits : UInt64) : Nat := bits.toNat % signWeight

def isNegative (bits : UInt64) : Bool := signWeight ≤ bits.toNat

def isFinite (bits : UInt64) : Bool := magnitudeBits bits < infinityBits

def isZero (bits : UInt64) : Bool := magnitudeBits bits = 0

/-- The same number with the other sign. -/
def negate (bits : UInt64) : UInt64 := ofMagnitude (!isNegative bits) (magnitudeBits bits)

/-- Significand `m` and exponent `q` of a finite number of magnitude `m · 2^q`. -/
def magnitude (bits : UInt64) : Nat × Int :=
  let exponent : Nat := magnitudeBits bits / Nat.pow 2 52
  let fraction : Nat := magnitudeBits bits % Nat.pow 2 52
  if exponent = 0 then (fraction, -1074) else (Nat.pow 2 52 + fraction, (exponent : Int) - 1075)

/-- A finite magnitude as a quotient of natural numbers. -/
def ratio (bits : UInt64) : Nat × Nat :=
  let (m, q) := magnitude bits
  if 0 ≤ q then (m * Nat.pow 2 q.toNat, 1) else (m, Nat.pow 2 (-q).toNat)

/-- Quotient rounded to the nearest natural number, a tie going to the even one. -/
def roundDiv (num den : Nat) : Nat :=
  let quotient := num / den
  let twice := 2 * (num % den)
  if twice < den then quotient
  else if den < twice then quotient + 1
  else quotient + quotient % 2

/-- Magnitude bits of the double nearest to `num / den`; overflow gives infinity. -/
def magnitudeOfRatio (num den : Nat) : Nat :=
  if num = 0 then 0 else
    let guess : Int := (Nat.log2 num : Int) - Nat.log2 den
    let tooHigh : Bool :=
      if 0 ≤ guess then num < den * Nat.pow 2 guess.toNat else num * Nat.pow 2 (-guess).toNat < den
    let leading := if tooHigh then guess - 1 else guess
    let q := max (leading - 52) (-1074)
    let rounded :=
      if 0 ≤ q then roundDiv num (den * Nat.pow 2 q.toNat)
      else roundDiv (num * Nat.pow 2 (-q).toNat) den
    min ((q + 1074).toNat * Nat.pow 2 52 + rounded) infinityBits

/-- The double nearest to `num / den` with the given sign. -/
def ofRatio (negative : Bool) (num den : Nat) : UInt64 :=
  ofMagnitude negative (magnitudeOfRatio num den)

/-- Number of decimal digits. -/
def decimalLength (n : Nat) : Nat := (Nat.toDigits 10 n).length

/-- The double nearest to `digits · 10^exponent`.  Exponents far outside the range of doubles are
settled without computing the power. -/
def ofDecimal (negative : Bool) (digits : Nat) (exponent : Int) : UInt64 :=
  let top := exponent + decimalLength digits
  if digits = 0 ∨ top < -330 then ofMagnitude negative 0
  else if 320 < top then ofMagnitude negative infinityBits
  else if 0 ≤ exponent then ofRatio negative (digits * Nat.pow 10 exponent.toNat) 1
  else ofRatio negative digits (Nat.pow 10 (-exponent).toNat)

end BuilderControl.Binary64
