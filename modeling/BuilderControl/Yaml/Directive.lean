import BuilderControl.Yaml.Properties

/-! # Directives of YAML text

A line that starts with a percent sign states the version or a handle of tags; other directives
are passed over. -/

namespace BuilderControl.Yaml

namespace Directive

/-- The digits of a version. -/
def versionNumber (c : Cursor) : Except FaultKind Cursor :=
  let (digits, after) := c.span Char.isDigit
  if 9 < digits.length then .error .versionTooLong
  else if digits.isEmpty then .error .versionNumberMissing
  else .ok after

/-- What follows the percent sign of a directive. -/
def read (start : Mark) (c : Cursor) : Except Fault Cursor := do
  let (name, after) := c.span isWord
  if name.isEmpty then throw ⟨.directiveNameMissing, c.mark⟩
  if !isSpaceOrEnd after.char then throw ⟨.directiveNameBad, c.mark⟩
  let body : Except FaultKind Cursor := match String.ofList name with
    | "YAML" => do
      let c ← versionNumber after.dropBlanks
      if c.char ≠ '.' then throw .versionDigitMissing
      versionNumber c.next
    | "TAG" => do
      let (_, c) ← Tag.handleChars true after.dropBlanks
      let (_, c) ← Tag.nameFrom [] c.dropBlanks
      if !isSpaceOrEnd c.char then throw .tagDirectiveEndMissing
      return c
    | _ => return after.dropWhile fun x => !isBreak x
  let c ← body.mapError (⟨·, start⟩)
  let c := c.dropBlanks.dropComment
  if !isBreakOrEnd c.char then throw ⟨.directiveEndMissing, start⟩
  return c.dropBreak

end Directive

end BuilderControl.Yaml
