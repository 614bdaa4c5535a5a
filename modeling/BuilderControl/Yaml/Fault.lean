import BuilderControl.Json.Located

/-! # What can be wrong with YAML text -/

namespace BuilderControl.Yaml

/-- A place in a text: lines count from one, columns from zero and in characters. -/
structure Mark where
  line : Nat := 1
  column : Nat := 0
deriving DecidableEq, Inhabited

inductive FaultKind where
  -- tokens
  | valueNotAllowed | keyNotAllowed | entryNotAllowed | entryOutsideBlock | implicitKeyExpected
  | implicitKeyColonMissing
  | unexpectedCharacter (c : Char)
  -- directives
  | directiveNameMissing | directiveNameBad | directiveEndMissing | versionDigitMissing
  | versionTooLong | versionNumberMissing | tagDirectiveEndMissing
  -- tags and anchors
  | tagCloseMissing | tagEndMissing | tagMarkMissing | directiveTagMarkMissing | tagUriMissing
  | tagOctetMissing | tagLeadingOctet | tagTrailingOctet | tagCodePoint | anchorMissing
  -- scalars
  | blockIndentZero | blockHeaderEnd | blockTab | quotedDocumentMark | quotedEnd | unknownEscape
  | escapeDigits | escapeCodePoint | plainTab
  -- structure
  | tooDeep | documentStartMissing | nodeContentMissing | unknownAnchor
  | blockKeyMissing | flowMappingEnd | flowSequenceEnd | blockEntryMissing | unexpectedEnd
deriving DecidableEq, Inhabited

def FaultKind.message : FaultKind → String
  | .valueNotAllowed => "mapping values are not allowed in this context"
  | .keyNotAllowed => "mapping keys are not allowed in this context"
  | .entryNotAllowed => "block sequence entries are not allowed in this context"
  | .entryOutsideBlock => "\"-\" is only valid inside a block"
  | .implicitKeyExpected => "simple key expected"
  | .implicitKeyColonMissing => "simple key expect ':'"
  | .unexpectedCharacter c => "unexpected character: `" ++ c.toString ++ "'"
  | .directiveNameMissing => "while scanning a directive, could not find expected directive name"
  | .directiveNameBad => "while scanning a directive, found unexpected non-alphabetical character"
  | .directiveEndMissing =>
    "while scanning a directive, did not find expected comment or line break"
  | .versionDigitMissing =>
    "while scanning a YAML directive, did not find expected digit or '.' character"
  | .versionTooLong => "while scanning a YAML directive, found extremely long version number"
  | .versionNumberMissing => "while scanning a YAML directive, did not find expected version number"
  | .tagDirectiveEndMissing => "while scanning TAG, did not find expected whitespace or line break"
  | .tagCloseMissing => "while scanning a tag, did not find the expected '>'"
  | .tagEndMissing => "while scanning a tag, did not find expected whitespace or line break"
  | .tagMarkMissing => "while scanning a tag, did not find expected '!'"
  | .directiveTagMarkMissing => "while parsing a tag directive, did not find expected '!'"
  | .tagUriMissing => "while parsing a tag, did not find expected tag URI"
  | .tagOctetMissing => "while parsing a tag, did not find URI escaped octet"
  | .tagLeadingOctet => "while parsing a tag, found an incorrect leading UTF-8 octet"
  | .tagTrailingOctet => "while parsing a tag, found an incorrect trailing UTF-8 octet"
  | .tagCodePoint => "while parsing a tag, found an invalid UTF-8 codepoint"
  | .anchorMissing =>
    "while scanning an anchor or alias, did not find expected alphabetic or numeric character"
  | .blockIndentZero => "while scanning a block scalar, found an indentation indicator equal to 0"
  | .blockHeaderEnd =>
    "while scanning a block scalar, did not find expected comment or line break"
  | .blockTab =>
    "while scanning a block scalar, found a tab character where an indentation space is expected"
  | .quotedDocumentMark => "while scanning a quoted scalar, found unexpected document indicator"
  | .quotedEnd => "while scanning a quoted scalar, found unexpected end of stream"
  | .unknownEscape => "while parsing a quoted scalar, found unknown escape character"
  | .escapeDigits => "while parsing a quoted scalar, did not find expected hexadecimal number"
  | .escapeCodePoint =>
    "while parsing a quoted scalar, found invalid Unicode character escape code"
  | .plainTab => "while scanning a plain scalar, found a tab"
  | .tooDeep => "recursion limit exceeded"
  | .documentStartMissing => "did not find expected <document start>"
  | .nodeContentMissing => "while parsing a node, did not find expected node content"
  | .unknownAnchor => "while parsing node, found unknown anchor"
  | .blockKeyMissing => "while parsing a block mapping, did not find expected key"
  | .flowMappingEnd => "while parsing a flow mapping, did not find expected ',' or '\x7d'"
  | .flowSequenceEnd => "while parsing a flow sequence, expected ',' or ']'"
  | .blockEntryMissing => "while parsing a block collection, did not find expected '-' indicator"
  | .unexpectedEnd => "unexpected eof"

/-- A fault and its place. -/
structure Fault where
  kind : FaultKind
  mark : Mark
deriving DecidableEq, Inhabited

def Fault.message (f : Fault) : String :=
  f.kind.message ++ " at line " ++ toString f.mark.line ++ " column " ++ toString (f.mark.column + 1)

end BuilderControl.Yaml
