import BuilderControl.Entries
import BuilderControl.Binary64

/-! # JSON documents

A document keeps the members of an object in key order, so the order in which they were written
is not part of it.  Numbers are integers or doubles, and an integer never equals a double. -/

namespace BuilderControl

/-- A number: an integer, or a double given by its bits. -/
inductive Number where
  | int (value : Int)
  | float (bits : UInt64)
deriving DecidableEq, Inhabited

inductive Json where
  | null
  | bool (value : Bool)
  | num (value : Number)
  | str (text : String)
  | arr (items : List Json)
  | obj (members : List (String × Json))
deriving Inhabited

/-- Both zeros are one number. -/
def Number.canon : Number → Number
  | .float bits => if Binary64.isZero bits then .float 0 else .float bits
  | n => n

namespace Json

mutual
def decEq : (a b : Json) → Decidable (a = b)
  | .null, b => match b with
    | .null => isTrue rfl
    | .bool _ | .num _ | .str _ | .arr _ | .obj _ => isFalse (by simp)
  | .bool x, b => match b with
    | .bool y => decidable_of_iff (x = y) (by simp)
    | .null | .num _ | .str _ | .arr _ | .obj _ => isFalse (by simp)
  | .num x, b => match b with
    | .num y => decidable_of_iff (x = y) (by simp)
    | .null | .bool _ | .str _ | .arr _ | .obj _ => isFalse (by simp)
  | .str x, b => match b with
    | .str y => decidable_of_iff (x = y) (by simp)
    | .null | .bool _ | .num _ | .arr _ | .obj _ => isFalse (by simp)
  | .arr xs, b => match b with
    | .arr ys => @decidable_of_iff _ (xs = ys) (by simp) (decEqItems xs ys)
    | .null | .bool _ | .num _ | .str _ | .obj _ => isFalse (by simp)
  | .obj xs, b => match b with
    | .obj ys => @decidable_of_iff _ (xs = ys) (by simp) (decEqMembers xs ys)
    | .null | .bool _ | .num _ | .str _ | .arr _ => isFalse (by simp)
termination_by structural a => a
def decEqItems : (xs ys : List Json) → Decidable (xs = ys)
  | [], ys => match ys with
    | [] => isTrue rfl
    | _ :: _ => isFalse (by simp)
  | x :: xs, ys => match ys with
    | [] => isFalse (by simp)
    | y :: ys => match decEq x y, decEqItems xs ys with
      | isTrue h, isTrue t => isTrue (by rw [h, t])
      | isFalse h, _ => isFalse (by simp [h])
      | _, isFalse t => isFalse (by simp [t])
termination_by structural xs => xs
def decEqMembers : (xs ys : List (String × Json)) → Decidable (xs = ys)
  | [], ys => match ys with
    | [] => isTrue rfl
    | _ :: _ => isFalse (by simp)
  | (k, x) :: xs, ys => match ys with
    | [] => isFalse (by simp)
    | (l, y) :: ys => match decEq x y, decEqMembers xs ys with
      | isTrue h, isTrue t => decidable_of_iff (k = l) (by simp [h, t])
      | isFalse h, _ => isFalse (by simp [h])
      | _, isFalse t => isFalse (by simp [t])
termination_by structural xs => xs
end

instance : DecidableEq Json := decEq

/-! ### Equality of values -/

mutual
/-- The document with every negative zero replaced by zero. -/
def canon : Json → Json
  | .num n => .num n.canon
  | .arr xs => .arr (canonItems xs)
  | .obj ms => .obj (canonMembers ms)
  | .null => .null
  | .bool b => .bool b
  | .str s => .str s
termination_by structural j => j
def canonItems : List Json → List Json
  | [] => []
  | x :: xs => canon x :: canonItems xs
termination_by structural xs => xs
def canonMembers : List (String × Json) → List (String × Json)
  | [] => []
  | (k, v) :: ms => (k, canon v) :: canonMembers ms
termination_by structural ms => ms
end

/-- Equality as values: documents that differ only in signs of zeros are the same. -/
def same (a b : Json) : Bool := canon a = canon b

mutual
/-- Every object lists its members in key order. -/
def WellFormed : Json → Prop
  | .arr xs => WellFormedItems xs
  | .obj ms => Entries.Sorted ms ∧ WellFormedMembers ms
  | .null | .bool _ | .num _ | .str _ => True
termination_by structural j => j
def WellFormedItems : List Json → Prop
  | [] => True
  | x :: xs => WellFormed x ∧ WellFormedItems xs
termination_by structural xs => xs
def WellFormedMembers : List (String × Json) → Prop
  | [] => True
  | (_, v) :: ms => WellFormed v ∧ WellFormedMembers ms
termination_by structural ms => ms
end

/-! ### Looking inside -/

/-- Members of an object, none for anything else. -/
def members : Json → Entries String Json
  | .obj ms => ms
  | _ => []

/-- Member of an object. -/
def get? (j : Json) (key : String) : Option Json := Entries.get? j.members key

def isObject : Json → Bool
  | .obj _ => true
  | _ => false

def isNull : Json → Bool
  | .null => true
  | _ => false

def text? : Json → Option String
  | .str s => some s
  | _ => none

/-- An integer of 64 bits with sign. -/
def integer? : Json → Option Int
  | .num (.int i) => if -(Nat.pow 2 63) ≤ i ∧ i < Nat.pow 2 63 then some i else none
  | _ => none

/-- The object with one member set; anything else becomes an object with just that member. -/
def set (j : Json) (key : String) (value : Json) : Json := .obj (Entries.insert j.members key value)

/-- The object of a list of members. -/
def object (members : List (String × Json)) : Json := .obj (Entries.ofList members)

def ofOption : Option Json → Json
  | some j => j
  | none => .null

end Json

end BuilderControl
