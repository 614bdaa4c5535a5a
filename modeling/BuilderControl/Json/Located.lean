import BuilderControl.Json.Basic

/-! # JSON text as read, with places

Text is read into a tree that remembers where each value starts and stops, and that holds a fault
where reading had to stop.  Members stay in the order of the text and may repeat, so whoever
walks the tree meets the faults of a text in the order in which they stand.

* `Located.toJson`  the document of a tree, or the first fault
* `Located.skip`    the first fault of a value whose content does not matter -/

namespace BuilderControl.Json

/-- What can be wrong with a text. -/
inductive FaultKind where
  | endInList | endInObject | endInString | endInValue
  | expectedColon | expectedListEnd | expectedObjectEnd | expectedLiteral | expectedValue
  | badEscape | badNumber | numberOutOfRange | controlCharacter | keyNotText
  | loneSurrogate | unpairedEscape | trailingComma | trailingCharacters | tooDeep
deriving DecidableEq, Inhabited

def FaultKind.message : FaultKind → String
  | .endInList => "EOF while parsing a list"
  | .endInObject => "EOF while parsing an object"
  | .endInString => "EOF while parsing a string"
  | .endInValue => "EOF while parsing a value"
  | .expectedColon => "expected `:`"
  | .expectedListEnd => "expected `,` or `]`"
  | .expectedObjectEnd => "expected `,` or `\x7d`"
  | .expectedLiteral => "expected ident"
  | .expectedValue => "expected value"
  | .badEscape => "invalid escape"
  | .badNumber => "invalid number"
  | .numberOutOfRange => "number out of range"
  | .controlCharacter => "control character (\\u0000-\\u001F) found while parsing a string"
  | .keyNotText => "key must be a string"
  | .loneSurrogate => "lone leading surrogate in hex escape"
  | .unpairedEscape => "unexpected end of hex escape"
  | .trailingComma => "trailing comma"
  | .trailingCharacters => "trailing characters"
  | .tooDeep => "recursion limit exceeded"

/-- Whether the text just ended too early. -/
def FaultKind.isEnd : FaultKind → Bool
  | .endInList | .endInObject | .endInString | .endInValue => true
  | _ => false

/-- A fault and its place, counted in bytes from the start of the text. -/
structure Fault where
  kind : FaultKind
  offset : Nat
deriving DecidableEq, Inhabited

inductive Scalar where
  | null
  | bool (value : Bool)
  | num (value : Number)
  | str (text : String)
deriving DecidableEq, Inhabited

def Scalar.toJson : Scalar → Json
  | .null => .null
  | .bool b => .bool b
  | .num n => .num n
  | .str s => .str s

/-- What is known of an object's key: where its colon stands, and where the value is followed by
more text. -/
structure KeyPlace where
  key : String
  colon : Nat
  after : Nat
deriving Inhabited

/-- A value as read. -/
inductive Located where
  | scalar (value : Scalar) (start stop : Nat)
  | list (items : List Located) (start stop : Nat)
  | map (members : List (Except Fault KeyPlace × Located)) (start stop : Nat)
  /-- Nothing that can be used: the fault met when its content is wanted, and the one met when it
  is not, if there is one. -/
  | unreadable (wanted : Fault) (skipped : Option Fault) (start : Nat)
deriving Inhabited

namespace Located

mutual
/-- The first fault met when the value is passed over. -/
def skip : Located → Option Fault
  | .scalar _ _ _ => none
  | .list items _ _ => skipItems items
  | .map members _ _ => skipMembers members
  | .unreadable _ skipped _ => skipped
termination_by structural t => t
def skipItems : List Located → Option Fault
  | [] => none
  | t :: ts => (skip t).or (skipItems ts)
termination_by structural ts => ts
def skipMembers : List (Except Fault KeyPlace × Located) → Option Fault
  | [] => none
  | (key, t) :: ms =>
    match key with
    | .error fault => some fault
    | .ok _ => (skip t).or (skipMembers ms)
termination_by structural ms => ms
end

mutual
/-- The document that was read; of a repeated key the last value counts. -/
def toJson : Located → Except Fault Json
  | .scalar value _ _ => .ok value.toJson
  | .list items _ _ => (itemsToJson items).map .arr
  | .map members _ _ => (membersToJson members).map fun ms => .obj (Entries.ofList ms)
  | .unreadable wanted _ _ => .error wanted
termination_by structural t => t
def itemsToJson : List Located → Except Fault (List Json)
  | [] => .ok []
  | t :: ts => do
    let x ← toJson t
    let xs ← itemsToJson ts
    return x :: xs
termination_by structural ts => ts
def membersToJson : List (Except Fault KeyPlace × Located) → Except Fault (List (String × Json))
  | [] => .ok []
  | (key, t) :: ms => do
    let place ← key
    let v ← toJson t
    let vs ← membersToJson ms
    return (place.key, v) :: vs
termination_by structural ms => ms
end

end Located

/-! ### Places as lines and columns -/

/-- Line, and column in bytes. -/
structure LineColumn where
  line : Nat
  column : Nat
deriving DecidableEq, Inhabited

/-- Line and column of a byte offset; both start the count before the first byte. -/
def lineColumn (text : List Char) (offset : Nat) : LineColumn :=
  go text offset ⟨1, 0⟩
where
  go : List Char → Nat → LineColumn → LineColumn
    | [], _, at' => at'
    | c :: cs, left, at' =>
      if left = 0 then at'
      else if c = '\n' then go cs (left - 1) ⟨at'.line + 1, 0⟩
      else go cs (left - c.utf8Size) ⟨at'.line, at'.column + min left c.utf8Size⟩

end BuilderControl.Json
