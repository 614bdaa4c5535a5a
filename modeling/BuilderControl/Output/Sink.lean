/-! # Byte sinks

A sink takes bytes up to a limit.  A write that crosses the limit is taken as far as it fits and
fails. -/

namespace BuilderControl

structure Sink where
  /-- How many bytes there is room for in total. -/
  limit : Option Nat := none
  /-- Bytes taken so far. -/
  taken : List UInt8 := []
deriving DecidableEq, Inhabited

namespace Sink

/-- How many of `size` further bytes there is room for. -/
def room (s : Sink) (size : Nat) : Nat :=
  match s.limit with
  | none => size
  | some limit => min size (limit - s.taken.length)

/-- Writes bytes; the flag tells whether all of them were taken. -/
def write (s : Sink) (bytes : List UInt8) : Bool × Sink :=
  (s.room bytes.length = bytes.length, { s with taken := s.taken ++ bytes.take (s.room bytes.length) })

def writeText (s : Sink) (text : String) : Bool × Sink := s.write text.toUTF8.toList

/-- Longest start of some bytes that is text, and whether that is all of them. -/
def longestText (bytes : List UInt8) : Nat → String × Bool
  | 0 => ("", false)
  | fuel + 1 =>
    match String.fromUTF8? ⟨bytes.toArray⟩ with
    | some s => (s, true)
    | none => ((longestText bytes.dropLast fuel).1, false)

/-- Bytes as text; a character that was cut off is shown as the replacement character. -/
def textOf (bytes : List UInt8) : String :=
  let (s, whole) := longestText bytes 5
  if whole then s else s.push '\ufffd'

/-- The text taken after the first `skip` bytes. -/
def textFrom (s : Sink) (skip : Nat) : String := textOf (s.taken.drop skip)

end Sink

end BuilderControl
