/-! # Base64 text

Bytes are written with the standard alphabet, padded, and without stray bits, so each sequence of
bytes has one text.  `Base64.check` tells what keeps a text from being one. -/

namespace BuilderControl.Base64

inductive Fault where
  | badSymbol (byte : UInt8) (offset : Nat)
  | badLength (length : Nat)
  | strayBits (byte : UInt8) (offset : Nat)
  | badPadding
deriving DecidableEq, Inhabited

def Fault.message : Fault → String
  | .badSymbol byte offset =>
    "Invalid symbol " ++ toString byte ++ ", offset " ++ toString offset ++ "."
  | .badLength length => "Invalid input length: " ++ toString length
  | .strayBits byte offset =>
    "Invalid last symbol " ++ toString byte ++ ", offset " ++ toString offset ++ "."
  | .badPadding => "Invalid padding"

/-- The six bits a symbol stands for. -/
def symbolValue (byte : UInt8) : Option Nat :=
  let c := Char.ofNat byte.toNat
  if 'A' ≤ c ∧ c ≤ 'Z' then some (c.toNat - 'A'.toNat)
  else if 'a' ≤ c ∧ c ≤ 'z' then some (c.toNat - 'a'.toNat + 26)
  else if '0' ≤ c ∧ c ≤ '9' then some (c.toNat - '0'.toNat + 52)
  else if c = '+' then some 62
  else if c = '/' then some 63
  else none

def pad : UInt8 := 61

/-- The first byte that is no symbol, among bytes that start at `offset`. -/
def firstBad (offset : Nat) : List UInt8 → Option Fault
  | [] => none
  | b :: bs => if (symbolValue b).isNone then some (.badSymbol b offset) else firstBad (offset + 1) bs

/-- Checks the last group of at most four bytes, which starts at `offset`. -/
def checkLast (offset : Nat) (group : List UInt8) : Option Fault :=
  let symbols := group.takeWhile (· ≠ pad)
  let padding := group.dropWhile (· ≠ pad)
  let count := symbols.length
  let strayMask := if count = 2 then 16 else if count = 3 then 4 else 1
  (firstBad offset symbols).or <|
    if !padding.isEmpty ∧ (count < 2 ∨ padding.any (· ≠ pad)) then
      some (.badSymbol pad (offset + count))
    else if !group.isEmpty ∧ count < 2 then some (.badLength (offset + count))
    else if (padding.length + count) % 4 ≠ 0 then some .badPadding
    else match symbols.getLast? with
      | some b =>
        if (symbolValue b).getD 0 % strayMask = 0 then none
        else some (.strayBits b (offset + count - 1))
      | none => none

/-- What is wrong with a text, if anything. -/
def check (text : String) : Option Fault :=
  let bytes := text.toUTF8.toList
  let size := bytes.length
  let split := if size % 4 = 0 then size - 4 else size - size % 4
  let lonely : Option Fault := match bytes.getLast? with
    | some b =>
      if size % 4 = 1 ∧ b ≠ pad ∧ (symbolValue b).isNone then some (.badSymbol b (size - 1)) else none
    | none => none
  lonely.or ((firstBad 0 (bytes.take split)).or (checkLast split (bytes.drop split)))

end BuilderControl.Base64
