import BuilderControl.Json.Basic

/-! # Schemas of documents

A schema says which documents are read and what is kept of them.  A record lists its fields with
what their absence means; the members it does not list are dropped, kept, or read by further
fields that share the record's object. -/

namespace BuilderControl

/-- Integers of a fixed width. -/
structure IntegerRange where
  name : String
  low : Int
  high : Int
deriving DecidableEq, Inhabited

namespace IntegerRange

def signed64 : IntegerRange := ⟨"i64", -(Nat.pow 2 63), Nat.pow 2 63 - 1⟩
def signed32 : IntegerRange := ⟨"i32", -(Nat.pow 2 31), Nat.pow 2 31 - 1⟩
def unsigned16 : IntegerRange := ⟨"u16", 0, Nat.pow 2 16 - 1⟩

end IntegerRange

/-- What the absence of a field means, and when the field is written. -/
inductive Presence where
  /-- The field has to be there. -/
  | required
  /-- The field may be absent or `null`, and is written only with a value. -/
  | optional
  /-- An absent field has a value; that value is written only if `always`. -/
  | defaulted (value : Json) (always : Bool)
  /-- A field that is absent or `null` has a value, which is written. -/
  | lenient (value : Json)
  /-- The field has to be there; `null` stands for a value, which is written. -/
  | nullable (value : Json)
  /-- The field is written with this text, and may be read with no other. -/
  | fixed (text : String)
deriving Inhabited

structure FieldInfo where
  key : String
  presence : Presence
deriving Inhabited

/-- What a record does besides reading its fields. -/
structure RecordShape where
  /-- What a reader is told to expect. -/
  title : String
  /-- A list of the field values in order is read as well. -/
  positional : Bool := false
  /-- A repeated field is an error, else the last value counts. -/
  unique : Bool := false
  /-- The object has an embedded identity, kept only when it is complete. -/
  identified : Bool := false
  /-- Other members are kept as they are. -/
  keepsRest : Bool := false
deriving Inhabited

inductive Schema where
  | text
  | flag
  | integer (range : IntegerRange)
  /-- Any document, kept as it is. -/
  | anything
  /-- Bytes as base64 text; `null` means none. -/
  | bytes
  /-- A point in time as text. -/
  | instant
  /-- One of some names. -/
  | choice (options : List String)
  | list (item : Schema)
  /-- An object with any keys. -/
  | table (item : Schema)
  /-- An object with the record's own fields, and with further fields in the same object. -/
  | record (shape : RecordShape) (own inlined : List (FieldInfo × Schema))
deriving Inhabited

end BuilderControl
