import BuilderControl.Schema.Source

/-! # Reading documents by a schema

`Schema.decode` reads a document and gives its normal form: unlisted members are gone, defaults are
filled in, and what is written only with a value is left out otherwise.  Encoding a decoded value
is therefore no step of its own.

A record is read in two passes: members are read in the order in which they stand, then each field
is settled in the order of the record. -/

namespace BuilderControl

namespace Schema

variable {ν : Type}

/-- Reads a scalar that has to be text. -/
def decodeText (src : Source ν) (v : ν) (expected : String) : Except DecodeError String :=
  match src.textLayer v with
  | .text s => .ok s
  | layer => .error (src.mismatch v layer expected)

def decodeFlag (src : Source ν) (v : ν) : Except DecodeError Json :=
  match src.layer v with
  | .flag b => .ok (.bool b)
  | layer => .error (src.mismatch v layer "a boolean")

def decodeInteger (src : Source ν) (range : IntegerRange) (v : ν) : Except DecodeError Json :=
  match src.layer v with
  | .number (.int i) =>
    if range.low ≤ i ∧ i ≤ range.high then .ok (.num (.int i))
    else .error ⟨.wrongValue (.integer i) range.name, src.spot v⟩
  | layer => .error (src.mismatch v layer range.name)

def decodeBytes (src : Source ν) (v : ν) : Except DecodeError Json :=
  match src.layer v with
  | .null => .ok (.str "")
  | .text s => match Base64.check s with
    | none => .ok (.str s)
    | some fault => .error ⟨.badBytes fault, src.spot v⟩
  | layer => .error (src.mismatch v layer "a base64-encoded string")

def decodeInstant (src : Source ν) (v : ν) : Except DecodeError Json := do
  let s ← decodeText src v "an RFC 3339 formatted date and time string"
  match Instant.read s with
  | .ok t => return .str t.text
  | .error fault => .error ⟨.badInstant fault, src.spot v⟩

def decodeChoice (src : Source ν) (options : List String) (v : ν) : Except DecodeError Json :=
  match src.layer v with
  | .text s =>
    if s ∈ options then .ok (.str s) else .error ⟨.unknownChoice s options, src.spot v⟩
  | _ => .error (src.notName v)

/-- Whether a value stands for none. -/
def isAbsent (src : Source ν) (v : ν) : Bool :=
  match src.layer v with
  | .null => true
  | _ => false

/-- The value of a field that was given: nothing, if it was given as none. -/
def readGiven (src : Source ν) (presence : Presence) (v : ν)
    (read : ν → Except DecodeError Json) : Except DecodeError (Option Json) :=
  match presence with
  | .optional => if isAbsent src v then .ok none else (read v).map some
  | .lenient value | .nullable value =>
    if isAbsent src v then .ok (some value) else (read v).map some
  | .fixed name => do
    let j ← read v
    if j = .str name then return some j
    else .error ⟨.wrongValue (.text (j.text?.getD "")) name, none⟩
  | .required | .defaulted _ _ => (read v).map some

/-- What is written for a field; `given` is what was read, if the field was there. -/
def settle (info : FieldInfo) (given : Option Json) : Except DecodeCause (Option Json) :=
  match info.presence with
  | .required | .nullable _ => match given with
    | some v => .ok (some v)
    | none => .error (.missingField info.key)
  | .optional => .ok given
  | .defaulted value always =>
    let v := given.getD value
    .ok (if v = value ∧ !always then none else some v)
  | .lenient value => .ok (some (given.getD value))
  | .fixed name => .ok (some (.str name))

/-- Settles the fields of a record after its members were read. -/
def settleAll (found : Entries String (Option Json)) :
    List (FieldInfo × Schema) → Except DecodeCause (List (String × Json))
  | [] => .ok []
  | (info, _) :: fields => do
    let written ← settle info ((Entries.get? found info.key).join)
    let rest ← settleAll found fields
    return match written with
      | some v => (info.key, v) :: rest
      | none => rest

/-- What reading the members of an object has gathered. -/
structure Gathered where
  /-- Values of the fields that were there. -/
  found : Entries String (Option Json) := []
  /-- Other members, in order. -/
  rest : List (String × Json) := []

/-- Reads a member after others.  `read` reads a member that is a field, and `other` says what is
kept of any other. -/
def gatherMember (unique : Bool) (read : String → ν → Option (Except DecodeError (Option Json)))
    (other : ν → Except DecodeError (Option Json)) (g : Gathered) :
    Member ν → Except DecodeError Gathered
  | .fault e => .error e
  | .entry key value before after =>
    match read key value with
    | some reading =>
      if unique && Entries.contains g.found key then .error ⟨.duplicateField key, before⟩
      else match reading with
        | .ok j => .ok { g with found := Entries.insert g.found key j }
        | .error e => .error (e.settle after)
    | none => (other value).map fun
      | some j => { g with rest := g.rest ++ [(key, j)] }
      | none => g

/-- Reads members in the order in which they stand. -/
def gather (unique : Bool) (read : String → ν → Option (Except DecodeError (Option Json)))
    (other : ν → Except DecodeError (Option Json)) (members : List (Member ν)) :
    Except DecodeError Gathered :=
  members.foldlM (gatherMember unique read other) {}

/-- The complete identity among some members, and the members that are left over.  Reading it takes
the members that belong to it one by one and stops at the first that is no text. -/
def takeIdentity : List (String × Json) → Option String → Option String →
    Option (String × String) × List (String × Json)
  | [], some version, some kind => (some (version, kind), [])
  | [], _, _ => (none, [])
  | (k, v) :: rest, version, kind =>
    let taken := if k = "apiVersion" then version else kind
    if k = "apiVersion" ∨ k = "kind" then
      match v, taken with
      | .str s, none =>
        if k = "apiVersion" then takeIdentity rest (some s) kind
        else takeIdentity rest version (some s)
      | _, _ => (none, rest)
    else
      let (identity, left) := takeIdentity rest version kind
      (identity, (k, v) :: left)

/-- Assembles the object of a record from what was read. -/
def assemble (shape : RecordShape) (rest fields : List (String × Json)) : Json :=
  let (identity, left) := if shape.identified then takeIdentity rest none none else (none, rest)
  let kept := if shape.keepsRest then left else []
  let named := match identity with
    | some (version, kind) => [("apiVersion", Json.str version), ("kind", Json.str kind)]
    | none => []
  .object (kept ++ named ++ fields)

mutual
/-- The normal form of a document. -/
def decode (src : Source ν) : Schema → ν → Except DecodeError Json
  | .text, v => (decodeText src v "a string").map .str
  | .flag, v => decodeFlag src v
  | .integer range, v => decodeInteger src range v
  | .anything, v => src.whole v
  | .bytes, v => decodeBytes src v
  | .instant, v => decodeInstant src v
  | .choice options, v => decodeChoice src options v
  | .list item, v =>
    match src.layer v with
    | .list items _ => (items.mapM (decode src item)).map .arr
    | layer => .error (src.mismatch v layer "a sequence")
  | .table item, v =>
    match src.layer v with
    | .map members _ => do
      let entries ← members.mapM fun
        | .entry key value _ _ => (decode src item value).map (key, ·)
        | .fault e => .error e
      return .object entries
    | layer => .error (src.mismatch v layer "a map")
  | .record shape own inlined, v =>
    match src.layer v with
    | .map members done => do
      let setsAside := shape.identified || shape.keepsRest || !inlined.isEmpty
      let gathered ← gather shape.unique (decodeMember src own)
        (fun value =>
          if setsAside then (src.whole value).map some else (src.skip value).map fun _ => none)
        members
      let fields ← (settleAll gathered.found own).mapError (⟨·, done⟩)
      let further ← (gather shape.unique (decodeMember src.buffered inlined) (fun _ => .ok none)
        (members.map Member.bare)).mapError (·.settle done)
      let more ← (settleAll further.found inlined).mapError (⟨·, done⟩)
      return assemble shape gathered.rest (more ++ fields)
    | .list items done =>
      if shape.positional then do
        let fields ← decodeItems src shape own.length 0 own items done
        match items.drop own.length with
        | [] => return .object fields
        | extra :: _ => .error ((src.excess items.length own.length extra).settle done)
      else .error (src.mismatch v (.list items done) shape.title)
    | layer => .error (src.mismatch v layer shape.title)
termination_by structural s => s
/-- Reads a member by the field of its key; nothing, if no field has that key. -/
def decodeMember (src : Source ν) :
    List (FieldInfo × Schema) → String → ν → Option (Except DecodeError (Option Json))
  | [], _, _ => none
  | (info, schema) :: fields, key, v =>
    if info.key = key then some (readGiven src info.presence v (decode src schema))
    else decodeMember src fields key v
termination_by structural fields => fields
/-- Reads the fields of a record from a list; the missing ones at its end are absent. -/
def decodeItems (src : Source ν) (shape : RecordShape) (size taken : Nat) :
    List (FieldInfo × Schema) → List ν → Option Spot → Except DecodeError (List (String × Json))
  | [], _, _ => .ok []
  | (info, schema) :: fields, items, done => do
    let given ← match items with
      | v :: _ => readGiven src info.presence v (decode src schema)
      | [] => match info.presence with
        | .required | .nullable _ =>
          .error ⟨.wrongLength taken (shape.title ++ " with " ++ Source.elements size), done⟩
        | _ => .ok none
    let written ← (settle info given).mapError (⟨·, done⟩)
    let rest ← decodeItems src shape size (taken + 1) fields items.tail done
    return match written with
      | some v => (info.key, v) :: rest
      | none => rest
termination_by structural fields => fields
end

end Schema

end BuilderControl
