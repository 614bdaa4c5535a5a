import BuilderControl.Schema.Source
import BuilderControl.Yaml.Stream

/-! # Values of YAML nodes

Plain text stands for a number, a truth value or none if it reads as one; a tag can say what text has
to be.  `source` looks at nodes, through aliases, and places errors where nodes start. -/

namespace BuilderControl.Yaml

/-! ### Scalars -/

/-- A number in a base with a prefix after its sign. -/
def prefixed (base : Nat) (letter : Char) : List Char → Option Int
  | '0' :: x :: cs | '+' :: '0' :: x :: cs => if x = letter then Text.unsigned64 base cs else none
  | '-' :: '0' :: x :: cs => if x = letter then Text.signed64 base ('-' :: cs) else none
  | _ => none

/-- The number of octal digits after a zero; a sign before it does not count. -/
def oldOctal (cs : List Char) : Option Int :=
  match (Text.splitSign cs).2 with
  | '0' :: d :: ds => if (d :: ds).all Char.isDigit then Text.unsigned64 8 (d :: ds) else none
  | _ => none

/-- Digits after a zero are text, unless they are octal. -/
def hasLeadingZero (cs : List Char) : Bool :=
  match cs.dropWhile fun c => c = '+' || c = '-' with
  | '0' :: d :: ds => (d :: ds).all Char.isDigit
  | _ => false

/-- A decimal integer, of up to 128 bits. -/
def decimal (cs : List Char) : Option Int :=
  (Text.unsigned64 10 cs).orElse fun _ =>
    (match cs with
      | '-' :: _ => none
      | cs => Text.integer 10 0 (Nat.pow 2 128 - 1) cs).orElse fun _ =>
    Text.integer 10 (-(Nat.pow 2 127)) (Nat.pow 2 127 - 1) cs

/-- The integer that plain text stands for. -/
def plainInteger (cs : List Char) : Option Int :=
  (prefixed 16 'x' cs).orElse fun _ => (prefixed 8 'o' cs).orElse fun _ =>
  (prefixed 2 'b' cs).orElse fun _ => (oldOctal cs).orElse fun _ =>
    if hasLeadingZero cs then none else decimal cs

/-- The floating point number that plain text stands for. -/
def plainFloat (cs : List Char) : Option UInt64 :=
  let infinite (negative : Bool) := some (Binary64.ofMagnitude negative Binary64.infinityBits)
  let isInfinity (cs : List Char) : Bool := String.ofList cs ∈ [".inf", ".Inf", ".INF"]
  if isInfinity (cs.dropWhile (· = '+')) then infinite false
  else if cs.head? = some '-' && isInfinity cs.tail then infinite true
  else if String.ofList cs ∈ [".nan", ".NaN", ".NAN"] then
    some (Binary64.ofMagnitude false (Binary64.infinityBits + Nat.pow 2 51))
  else if hasLeadingZero cs then none
  else (Text.float cs).filter Binary64.isFinite

/-- What plain text stands for. -/
def plainLayer {ν : Type} (text : String) : Layer ν :=
  if text = "~" ∨ text = "null" then .null
  else if text = "true" then .flag true
  else if text = "false" then .flag false
  else match plainInteger text.toList with
    | some i => .number (.int i)
    | none => match plainFloat text.toList with
      | some bits => .number (.float bits)
      | none => .text text

/-- What a tag makes of text. -/
def taggedLayer {ν : Type} (tag : Tag) (text : String) (spot : Spot) : Layer ν :=
  let orElse (value : Option (Layer ν)) (expected : String) : Layer ν :=
    value.getD (.fault ⟨.wrongValue (.text text) expected, spot⟩)
  if tag.handle = "!!" then
    match tag.suffix with
    | "bool" => orElse (if text = "true" then some (.flag true)
        else if text = "false" then some (.flag false) else none) "a boolean"
    | "int" => orElse ((Text.signed64 10 text.toList).map (.number ∘ .int)) "an integer"
    | "float" => orElse ((Text.float text.toList).map (.number ∘ .float)) "a float"
    | "null" => orElse (if text = "~" ∨ text = "null" then some .null else none) "null"
    | _ => .text text
  else .text text

/-! ### Nodes as they are reached -/

/-- A node, and how it is reached from the top of its document. -/
structure Reached where
  node : Node
  /-- Nothing at the top. -/
  route : Option String := none
deriving Inhabited

namespace Reached

/-- The node that a node stands for. -/
def resolve (anchors : Anchors) : Node → Node
  | .reference anchor mark => (anchors.lookup anchor).getD (.absent mark)
  | n => n

def spot (anchors : Anchors) (r : Reached) : Spot :=
  let mark := (resolve anchors r.node).mark
  ⟨r.route, mark.line, mark.column + 1⟩

def item (r : Reached) (index : Nat) (node : Node) : Reached :=
  ⟨node, some (r.route.getD "." ++ "[" ++ toString index ++ "]")⟩

/-- The value of a key; a key that is an alias has no name. -/
def value (r : Reached) (key node : Node) : Reached :=
  let name := match key with
    | .scalar _ _ text _ => text
    | _ => "?"
  ⟨node, some (match r.route with
    | some route => route ++ "." ++ name
    | none => name)⟩

def member (anchors : Anchors) (r : Reached) (key value : Node) : Member Reached :=
  let spot := r.spot anchors
  let noName (found : Found) : Member Reached :=
    .fault ⟨.wrongType found "field identifier", Reached.spot anchors ⟨key, r.route⟩⟩
  match resolve anchors key with
  | .scalar _ _ text _ => .entry text (r.value key value) spot spot
  | .list _ _ => noName .list
  | _ => noName .map

def layer (anchors : Anchors) (r : Reached) : Layer Reached :=
  match resolve anchors r.node with
  | .scalar plain tag text _ => match tag, plain with
    | some tag, _ => taggedLayer tag text (r.spot anchors)
    | none, true => plainLayer text
    | none, false => .text text
  | .list items _ => .list (items.mapIdx r.item) (r.spot anchors)
  | .map pairs _ => .map (pairs.map fun (k, v) => r.member anchors k v) (r.spot anchors)
  | .reference _ _ => .null

def textLayer (anchors : Anchors) (r : Reached) : Layer Reached :=
  match resolve anchors r.node with
  | .scalar _ _ text _ => .text text
  | _ => r.layer anchors

/-- A node as a document.  Aliases may make it endless, so it can nest only up to `depth`. -/
def whole (anchors : Anchors) : (depth : Nat) → Reached → Except DecodeError Json
  | 0, r => .error ⟨.malformed .tooDeep, r.spot anchors⟩
  | depth + 1, r =>
    match r.layer anchors with
    | .null => .ok .null
    | .flag b => .ok (.bool b)
    | .number n => .ok (.num n)
    | .text s => .ok (.str s)
    | .list items _ => (items.mapM (whole anchors depth)).map .arr
    | .map members _ => do
      let entries ← members.mapM fun
        | .entry key value _ _ => (whole anchors depth value).map (key, ·)
        | .fault e => .error e
      return .object entries
    | .fault e => .error e

end Reached

/-- Values nest up to this depth. -/
def depthLimit : Nat := 128

/-- YAML documents with these anchors. -/
def source (anchors : Anchors) : Source Reached where
  layer r := r.layer anchors
  textLayer r := r.textLayer anchors
  spot r := r.spot anchors
  skip _ := .ok ()
  whole := Reached.whole anchors depthLimit
  excess total expected _ :=
    ⟨.wrongLength total ("sequence of " ++ Source.elements expected), none⟩
  notName r := ⟨.wrongType (.ofLayer (r.layer anchors)) "a name", r.spot anchors⟩

end BuilderControl.Yaml
