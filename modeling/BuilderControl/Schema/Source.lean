import BuilderControl.Schema.Error

/-! # Sources of documents

A decoder sees one layer of a document at a time and learns from the source where an error is to be
placed.  Documents in memory have no places; documents read from text have them, and may hold
faults at which reading stopped.

* `Source.memory`    JSON documents
* `Source.text`      JSON text as read
* `Source.buffered`  members that were set aside and are read again without places -/

namespace BuilderControl

/-- A member of an object, with the places for errors raised before and after its value is read. -/
inductive Member (ν : Type) where
  | entry (key : String) (value : ν) (before after : Option Spot)
  | fault (error : DecodeError)

/-- The outermost layer of a document; containers come with the place of errors raised after their
content was read. -/
inductive Layer (ν : Type) where
  | null
  | flag (value : Bool)
  | number (value : Number)
  | text (value : String)
  | list (items : List ν) (done : Option Spot)
  | map (members : List (Member ν)) (done : Option Spot)
  | fault (error : DecodeError)

/-- The same member without places. -/
def Member.bare {ν : Type} : Member ν → Member ν
  | .entry key value _ _ => .entry key value none none
  | .fault e => .fault e

/-- The same layer without places. -/
def Layer.bare {ν : Type} : Layer ν → Layer ν
  | .list items _ => .list items none
  | .map members _ => .map (members.map Member.bare) none
  | layer => layer

/-- How documents of one kind are looked at. -/
structure Source (ν : Type) where
  layer : ν → Layer ν
  /-- The layer where text is wanted: formats without quotes have text for any scalar. -/
  textLayer : ν → Layer ν
  /-- Place of an error about the value itself. -/
  spot : ν → Option Spot
  /-- Passes over a value. -/
  skip : ν → Except DecodeError Unit
  /-- The whole value as a document. -/
  whole : ν → Except DecodeError Json
  /-- Items are left over: how many there are, how many were expected, and the first of them. -/
  excess : (total expected : Nat) → ν → DecodeError
  /-- The value is no name. -/
  notName : ν → DecodeError

def Found.ofLayer {ν : Type} : Layer ν → Found
  | .null => .nothing
  | .flag b => .flag b
  | .number (.int i) => .integer i
  | .number (.float bits) => .float bits
  | .text s => .text s
  | .list _ _ => .list
  | .map _ _ | .fault _ => .map

namespace Source

variable {ν : Type}

/-- The error for a value of the wrong type. -/
def mismatch (src : Source ν) (v : ν) (layer : Layer ν) (expected : String) : DecodeError :=
  match layer with
  | .fault e => e
  | layer => ⟨.wrongType (.ofLayer layer) expected, src.spot v⟩

/-- "1 element", "2 elements". -/
def elements (n : Nat) : String := toString n ++ (if n = 1 then " element" else " elements")

/-- JSON documents in memory. -/
def memory : Source Json where
  layer
    | .null => .null
    | .bool b => .flag b
    | .num n => .number n
    | .str s => .text s
    | .arr items => .list items none
    | .obj members => .map (members.map fun (k, v) => .entry k v none none) none
  textLayer
    | .null => .null
    | .bool b => .flag b
    | .num n => .number n
    | .str s => .text s
    | .arr items => .list items none
    | .obj members => .map (members.map fun (k, v) => .entry k v none none) none
  spot _ := none
  skip _ := .ok ()
  whole j := .ok j
  excess total _ _ := ⟨.wrongLength total "fewer elements in array", none⟩
  notName v := ⟨.wrongType (match v with
    | .null => .nothing
    | .bool b => .flag b
    | .num (.int i) => .integer i
    | .num (.float bits) => .float bits
    | .str s => .text s
    | .arr _ => .list
    | .obj _ => .map) "string or map", none⟩

/-- The same documents after they were set aside: places are lost. -/
def buffered (src : Source ν) : Source ν where
  layer v := (src.layer v).bare
  textLayer v := (src.textLayer v).bare
  spot _ := none
  skip := src.skip
  whole := src.whole
  excess total expected _ :=
    ⟨.wrongLength total (elements expected ++ " in sequence"), none⟩
  notName v := { src.notName v with spot := none }
/-- Where a value that was read starts. -/
def start : Json.Located → Nat
  | .scalar _ start _ | .list _ start _ | .map _ start _ | .unreadable _ _ start => start

/-- JSON text, as read. -/
def text (chars : List Char) : Source Json.Located where
  layer := layerOf
  textLayer := layerOf
  spot
    | .scalar _ _ stop => at' stop
    | t => at' (start t)
  skip t := match t.skip with
    | some fault => .error (fail fault)
    | none => .ok ()
  whole t := (t.toJson).mapError fail
  excess _ _ t :=
    let fault : Json.Fault := match t with
      | .unreadable fault _ _ =>
        if fault.kind = .endInList ∨ fault.kind = .trailingComma then fault
        else ⟨.trailingCharacters, start t + 1⟩
      | t => ⟨.trailingCharacters, start t + 1⟩
    fail fault
  notName t := match t with
    | .unreadable fault _ _ => fail fault
    | t => fail ⟨.expectedValue, start t + 1⟩
where
  at' (offset : Nat) : Option Spot := some ⟨none, Json.lineColumn chars offset⟩
  fail (fault : Json.Fault) : DecodeError := ⟨.malformed fault.kind, at' fault.offset⟩
  layerOf : Json.Located → Layer Json.Located
    | .scalar .null _ _ => .null
    | .scalar (.bool b) _ _ => .flag b
    | .scalar (.num n) _ _ => .number n
    | .scalar (.str s) _ _ => .text s
    | .list items _ stop => .list items (at' stop)
    | .map members _ stop => .map (members.map fun (key, t) => match key with
      | .ok place => .entry place.key t (at' place.colon) (at' place.after)
      | .error fault => .fault (fail fault)) (at' stop)
    | .unreadable fault _ _ => .fault (fail fault)

end Source

end BuilderControl
