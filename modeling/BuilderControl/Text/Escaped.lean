import BuilderControl.Text.Glyphless

/-! # Text inside messages

Messages show text between quotes with escapes, so that every character of it can be seen. -/

namespace BuilderControl.Text

/-- One character as it is shown; a character without a glyph is shown by its code point. -/
def escapedChar (c : Char) : String :=
  match c with
  | '\x00' => "\\0"
  | '\t' => "\\t"
  | '\r' => "\\r"
  | '\n' => "\\n"
  | '"' => "\\\""
  | '\\' => "\\\\"
  | c =>
    if isGlyphless c then "\\u\x7b" ++ String.ofList (Nat.toDigits 16 c.toNat) ++ "\x7d"
    else c.toString

/-- Text between quotes with escapes. -/
def escaped (s : String) : String := "\"" ++ s.foldl (fun out c => out ++ escapedChar c) "" ++ "\""

end BuilderControl.Text
