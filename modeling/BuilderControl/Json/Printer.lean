import BuilderControl.Json.Basic
import BuilderControl.Binary64.Shortest

/-! # JSON text

`compact` writes a document without any blanks, `pretty` with one member or item to a line and an
indentation of two columns a level.  Only quotes, backslashes and control characters are
escaped. -/

namespace BuilderControl

namespace Json

/-- Numbers have an exponent from `10^16` on and below `10^-5`, and the exponent always has a
sign. -/
def numberLayout : Binary64.Layout := {}

def numberText : Number → String
  | .int i => toString i
  | .float bits => Binary64.render numberLayout bits

/-- Four hexadecimal digits in lower case. -/
def hex4 (n : Nat) : String :=
  let digits := Nat.toDigits 16 n
  String.ofList (List.replicate (4 - digits.length) '0' ++ digits)

/-- One character inside quotes. -/
def escape (c : Char) : String :=
  match c with
  | '"' => "\\\""
  | '\\' => "\\\\"
  | '\n' => "\\n"
  | '\r' => "\\r"
  | '\t' => "\\t"
  | '\x08' => "\\b"
  | '\x0c' => "\\f"
  | c => if c.toNat < 0x20 then "\\u" ++ hex4 c.toNat else c.toString

def quoted (s : String) : String := "\"" ++ s.foldl (fun out c => out ++ escape c) "" ++ "\""

mutual
/-- Text without blanks. -/
def compact : Json → String
  | .null => "null"
  | .bool b => if b then "true" else "false"
  | .num n => numberText n
  | .str s => quoted s
  | .arr xs => "[" ++ compactItems xs ++ "]"
  | .obj ms => "\x7b" ++ compactMembers ms ++ "\x7d"
termination_by structural j => j
def compactItems : List Json → String
  | [] => ""
  | x :: xs => compact x ++ (if xs.isEmpty then "" else ",") ++ compactItems xs
termination_by structural xs => xs
def compactMembers : List (String × Json) → String
  | [] => ""
  | (k, v) :: ms =>
    quoted k ++ ":" ++ compact v ++ (if ms.isEmpty then "" else ",") ++ compactMembers ms
termination_by structural ms => ms
end

/-- A new line indented to the given level. -/
def newline (level : Nat) : String := "\n" ++ String.ofList (List.replicate (2 * level) ' ')

mutual
/-- Text with one member or item to a line, at the given level of nesting. -/
def prettyAt (level : Nat) : Json → String
  | .null => "null"
  | .bool b => if b then "true" else "false"
  | .num n => numberText n
  | .str s => quoted s
  | .arr [] => "[]"
  | .arr (x :: xs) => "[" ++ prettyItems level (x :: xs) ++ newline level ++ "]"
  | .obj [] => "\x7b\x7d"
  | .obj (m :: ms) => "\x7b" ++ prettyMembers level (m :: ms) ++ newline level ++ "\x7d"
termination_by structural j => j
def prettyItems (level : Nat) : List Json → String
  | [] => ""
  | x :: xs =>
    newline (level + 1) ++ prettyAt (level + 1) x ++ (if xs.isEmpty then "" else ",")
      ++ prettyItems level xs
termination_by structural xs => xs
def prettyMembers (level : Nat) : List (String × Json) → String
  | [] => ""
  | (k, v) :: ms =>
    newline (level + 1) ++ quoted k ++ ": " ++ prettyAt (level + 1) v
      ++ (if ms.isEmpty then "" else ",") ++ prettyMembers level ms
termination_by structural ms => ms
end

/-- Text with one member or item to a line. -/
def pretty (j : Json) : String := prettyAt 0 j

end Json

end BuilderControl
