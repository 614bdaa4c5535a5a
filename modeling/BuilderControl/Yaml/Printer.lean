import BuilderControl.Json.Printer
import BuilderControl.Text.Numeral

/-! # YAML text of a document

Containers are written in block style, empty ones in flow style.  Text is plain unless a reader
could take it for something else. -/

namespace BuilderControl.Yaml

/-- Words that a reader takes for a truth value or for none. -/
def reservedWords : List String :=
  ["yes", "Yes", "YES", "no", "No", "NO", "True", "TRUE", "true", "False", "FALSE", "false",
   "on", "On", "ON", "off", "Off", "OFF", "null", "Null", "NULL", "~"]

/-- Characters that plain text can not start with. -/
def indicators : List Char := ['&', '*', '?', '|', '-', '<', '>', '=', '!', '%', '@', '.', ' ']

/-- Characters that plain text can not have. -/
def isSpecial (c : Char) : Bool :=
  c ∈ [':', '\x7b', '\x7d', '[', ']', ',', '#', '\x60', '"', '\x27', '\\', '\t', '\n', '\r'] ||
    c.toNat ≤ 6 || (0x0e ≤ c.toNat && c.toNat ≤ 0x1a) || (0x1c ≤ c.toNat && c.toNat ≤ 0x1f)

/-- Whether text has to be quoted. -/
def needsQuotes (s : String) : Bool :=
  let cs := s.toList
  cs.isEmpty || cs.head?.any (· ∈ indicators) || cs.getLast? = some ' ' || cs.any isSpecial ||
    s ∈ reservedWords || cs.take 2 = ['0', 'x'] || (Text.signed64 10 cs).isSome ||
    (Text.float cs).isSome

/-- One character inside quotes. -/
def escape (c : Char) : String :=
  if c.toNat = 0x7f then "\\u007f" else Json.escape c

def scalarText (s : String) : String :=
  if needsQuotes s then "\"" ++ s.foldl (fun out c => out ++ escape c) "" ++ "\"" else s

/-- An exponent has a sign only if it is negative. -/
def numberLayout : Binary64.Layout := { plus := "" }

def numberText : Number → String
  | .int i => toString i
  | .float bits => Binary64.render numberLayout bits

/-- A new line at the given level of nesting. -/
def newline (level : Nat) : String := "\n" ++ String.ofList (List.replicate (2 * level) ' ')

mutual
/-- Text of a value whose first line is started already, at the given level of nesting. -/
def block (level : Nat) : Json → String
  | .null => "~"
  | .bool b => if b then "true" else "false"
  | .num n => numberText n
  | .str s => scalarText s
  | .arr [] => "[]"
  | .arr (x :: xs) => items level true (x :: xs)
  | .obj [] => "\x7b\x7d"
  | .obj (m :: ms) => members level true (m :: ms)
termination_by structural j => j
/-- Items of a list; only the first one stands on the line that was started. -/
def items (level : Nat) (first : Bool) : List Json → String
  | [] => ""
  | x :: xs =>
    (if first then "" else newline level) ++ "- " ++ block (level + 1) x ++ items level false xs
termination_by structural xs => xs
/-- Members of an object; a container with content starts on a line of its own. -/
def members (level : Nat) (first : Bool) : List (String × Json) → String
  | [] => ""
  | (k, v) :: ms =>
    let lead := match v with
      | .arr (_ :: _) | .obj (_ :: _) => newline (level + 1)
      | _ => " "
    (if first then "" else newline level) ++ scalarText k ++ ":" ++ lead ++ block (level + 1) v
      ++ members level false ms
termination_by structural ms => ms
end

/-- Text of a document, without the line that starts it. -/
def text (j : Json) : String := block 0 j

end BuilderControl.Yaml
