import BuilderControl.CommandLine.Help
import BuilderControl.Mode
import BuilderControl.Text.Escaped

/-! # Parsing a command line

Arguments are taken from left to right.  An option whose value comes as the next argument is pending
until something else is given, so a fault of its value shows only then; faults of names show at
once.  What is missing shows last. -/

namespace BuilderControl.CommandLine

/-- A value as a command sees it. -/
inductive ArgValue where
  | text (value : String)
  | truth (value : Bool)
  | number (value : Nat)
  | resourceType (value : ResourceType)
deriving DecidableEq, Inhabited

/-- Why a value is refused. -/
inductive ValueFault where
  | badDigit
  | tooLarge
  | noDigits
  | unknownType (name : String)
deriving DecidableEq, Inhabited

def ValueFault.message : ValueFault → String
  | .badDigit => "invalid digit found in string"
  | .tooLarge => "number too large to fit in target type"
  | .noDigits => "cannot parse integer from empty string"
  | .unknownType name => "unknown resource type " ++ Text.escaped name

/-- Why there is nothing to run. -/
inductive UsageError where
  | unknownArgument
  | unknownCommand
  /-- A value is missing, empty, or none of those that are possible. -/
  | badChoice
  | givenTwice
  | needlessValue
  | missingArgument
  | refused (value label : String) (fault : ValueFault)
  | help (text : String)
  | version (text : String)
  /-- No command was given, so its help is shown. -/
  | helpInstead (text : String)
deriving DecidableEq, Inhabited

/-- The text shown for the errors that come with one. -/
def UsageError.message? : UsageError → Option String
  | .refused value label fault =>
    some ("error: invalid value '" ++ value ++ "' for '" ++ label ++ "': " ++ fault.message
      ++ "\n\nFor more information, try '--help'.\n")
  | .help text | .version text | .helpInstead text => some text
  | _ => none

/-- What an error says without naming what it is about. -/
def UsageError.summary : UsageError → String
  | .unknownArgument => "unexpected argument"
  | .unknownCommand => "unrecognized subcommand"
  | .badChoice | .refused .. => "a value is not valid for its argument"
  | .givenTwice => "an argument was given more than once"
  | .needlessValue => "a value for an argument that takes none"
  | .missingArgument => "a required argument was not provided"
  | .help _ | .version _ => ""
  | .helpInstead _ => "no command was given"

/-- What is shown for an error: its own text, or its summary. -/
def UsageError.text (e : UsageError) : String :=
  e.message?.getD ("error: " ++ e.summary ++ "\n\nFor more information, try '--help'.\n")

/-- Whether what was shown is what was asked for. -/
def UsageError.isAnswer : UsageError → Bool
  | .help _ | .version _ => true
  | _ => false

/-- An argument that has values. -/
structure Match where
  id : String
  /-- Given on the command line, rather than by default. -/
  explicit : Bool
  type : FlagType
  values : List ArgValue
deriving DecidableEq, Inhabited

abbrev Matches := List Match

def Matches.find? (ms : Matches) (id : String) : Option Match := List.find? (·.id = id) ms

/-! ### Values -/

/-- The resource type of a name; case does not matter. -/
def resourceTypeOf (name : String) : Option ResourceType :=
  match name.toLower with
  | "secret" | "secrets" => some .secret
  | "serviceaccount" | "serviceaccounts" | "sa" => some .serviceAccount
  | "image" | "images" | "img" => some .image
  | "builder" | "builders" | "bldr" => some .builder
  | "clusterbuilder" | "clusterbuilders" | "cb" => some .clusterBuilder
  | "clusterstack" | "clusterstacks" | "csk" => some .clusterStack
  | "clusterstore" | "clusterstores" | "css" => some .clusterStore
  | _ => none

/-- The digits of a number in turn; the first one that can not be taken is at fault. -/
def digits (n : Nat) : List Char → Except ValueFault Nat
  | [] => .ok n
  | c :: cs =>
    if !c.isDigit then .error .badDigit
    else
      let next := n * 10 + (c.toNat - '0'.toNat)
      if next < Nat.pow 2 64 then digits next cs else .error .tooLarge

/-- An integer of 64 bits without a sign; a plus is allowed. -/
def number (s : String) : Except ValueFault Nat :=
  match s.toList with
  | [] => .error .noDigits
  | ['+'] => .error .badDigit
  | '+' :: cs => digits 0 cs
  | cs => digits 0 cs

def Arg.read (a : Arg) (s : String) : Except UsageError ArgValue :=
  match a.type with
  | .text => .ok (.text s)
  | .path => if s.isEmpty then .error .badChoice else .ok (.text s)
  | .unsigned64 => match number s with
    | .ok n => .ok (.number n)
    | .error fault => .error (.refused s a.label fault)
  | .truth =>
    if s = "true" then .ok (.truth true)
    else if s = "false" then .ok (.truth false)
    else .error .badChoice
  | .resourceType => match resourceTypeOf s with
    | some t => .ok (.resourceType t)
    | none => .error (.refused s a.label (.unknownType s))

/-! ### Arguments in turn -/

/-- What was taken so far. -/
structure ParseState where
  found : Matches := []
  /-- An argument whose values are not yet looked at. -/
  pending : Option (Arg × List String) := none
  /-- The next argument is the value of the pending option. -/
  awaiting : Bool := false
  /-- How many positional arguments were taken. -/
  position : Nat := 0
  /-- Only positional arguments follow. -/
  trailing : Bool := false
deriving Inhabited

/-- A command, and the words that led to it. -/
structure Place where
  route : List String
  command : CommandSpec
  /-- What is shown for the version, if the command shows it. -/
  version : String

namespace ParseState

/-- Records values of an argument. -/
def record (s : ParseState) (a : Arg) (raw : List String) : Except UsageError ParseState := do
  if a.takesValue && raw.isEmpty then .error .badChoice
  let earlier := s.found.find? a.id
  let others := s.found.filter (·.id ≠ a.id)
  match a.action with
  | .set =>
    if earlier.isSome then .error .givenTwice
    let values ← raw.mapM a.read
    return { s with found := others ++ [⟨a.id, true, a.flagType, values⟩] }
  | .append =>
    let values ← raw.mapM a.read
    return { s with found :=
      others ++ [⟨a.id, true, a.flagType, (earlier.elim [] Match.values) ++ values⟩] }
  | .switch =>
    if earlier.isSome then .error .givenTwice
    return { s with found := others ++ [⟨a.id, true, a.flagType, [.truth true]⟩] }
  | .count =>
    let before := match earlier.elim [] Match.values with
      | .number n :: _ => n
      | _ => 0
    return { s with found := others ++ [⟨a.id, true, a.flagType, [.number (min 255 (before + 1))]⟩] }
  | .showHelp | .showVersion => return s

/-- Looks at the values of the pending argument. -/
def resolve (s : ParseState) : Except UsageError ParseState :=
  match s.pending with
  | none => .ok s
  | some (a, raw) => { s with pending := none, awaiting := false }.record a raw

/-- Gives an argument with the values that came attached to it. -/
def give (s : ParseState) (place : Place) (a : Arg) (attached : Option String) :
    Except UsageError ParseState := do
  let s ← s.resolve
  match a.action with
  | .showHelp => .error (.help (help place.route place.command))
  | .showVersion => .error (.version place.version)
  | .set | .append => match attached with
    | some value => s.record a [value]
    | none => return { s with pending := some (a, []), awaiting := true }
  | .switch | .count => s.record a []

/-- Takes an argument that starts with two dashes. -/
def takeLong (s : ParseState) (place : Place) (word : List Char) : Except UsageError ParseState := do
  let name := String.ofList (word.takeWhile (· ≠ '='))
  let attached := match word.dropWhile (· ≠ '=') with
    | [] => none
    | _ :: value => some (String.ofList value)
  match place.command.args.find? (·.long = some name) with
  | none => .error .unknownArgument
  | some a =>
    if attached.isSome && !a.takesValue then .error .needlessValue
    else s.give place a attached

/-- Takes an argument that starts with one dash: flags, the last of which may be an option with its
value. -/
def takeShort (s : ParseState) (place : Place) : List Char → Except UsageError ParseState
  | [] => .ok s
  | c :: rest =>
    match place.command.args.find? (·.short = some c) with
    | none => .error .unknownArgument
    | some a =>
      if a.takesValue then
        s.give place a (match rest with
          | [] => none
          | '=' :: value => some (String.ofList value)
          | value => some (String.ofList value))
      else do
        let s ← s.give place a none
        s.takeShort place rest

/-- Takes a positional argument. -/
def takePositional (s : ParseState) (place : Place) (word : String) :
    Except UsageError ParseState := do
  match place.command.positionals[s.position]? with
  | some a =>
    let s ← s.resolve
    return { s with pending := some (a, [word]), position := s.position + 1 }
  | none =>
    if place.command.subcommands.isEmpty || (s.trailing && (place.command.find? word).isSome) then
      .error .unknownArgument
    else .error .unknownCommand

/-- Looks at what is pending, adds defaults, and checks that nothing is missing. -/
def finish (s : ParseState) (place : Place) : Except UsageError Matches := do
  let s ← s.resolve
  let absent := place.command.args.filter fun a => (s.found.find? a.id).isNone
  let defaults ← (absent.filter fun a => a.default.isSome).mapM fun a => do
    let value ← a.read (a.default.getD "")
    return ({ id := a.id, explicit := false, type := a.flagType, values := [value] } : Match)
  if !place.command.subcommands.isEmpty then
    .error (.helpInstead (help place.route place.command))
  if absent.any fun a => a.required && a.default.isNone then .error .missingArgument
  return s.found ++ defaults

end ParseState

/-- The help of the command that some words lead to. -/
def helpOf (route : List String) (c : CommandSpec) : List String → UsageError
  | [] => .help (help route c)
  | word :: words =>
    match c.find? word with
    | some sub => helpOf (route ++ [sub.name]) sub words
    | none => .unknownCommand

/-- The words of a command, and its matches. -/
structure Parsed where
  route : List String
  found : Matches
deriving Inhabited

/-- Parses the arguments of a command. -/
def parseFrom (place : Place) (s : ParseState) : List String → Except UsageError Parsed
  | [] => (s.finish place).map (⟨place.route, ·⟩)
  | word :: words =>
    let subcommand := if s.trailing || s.awaiting then none else place.command.find? word
    match subcommand with
    | some sub =>
      if sub.name = "help" then .error (helpOf place.route place.command words)
      else parseFrom ⟨place.route ++ [sub.name], sub, ""⟩ {} words
    | none =>
      let positional (s : ParseState) : Except UsageError Parsed :=
        if s.awaiting && !s.trailing then
          let pending := s.pending.map fun (a, raw) => (a, raw ++ [word])
          parseFrom place { s with pending := pending, awaiting := false } words
        else do
          let s ← s.takePositional place word
          parseFrom place s words
      if s.trailing then positional s
      else match word.toList with
        | ['-', '-'] => parseFrom place { s with trailing := true } words
        | '-' :: '-' :: rest => do
          let s ← s.takeLong place rest
          parseFrom place s words
        | '-' :: c :: rest => do
          let s ← s.takeShort place (c :: rest)
          parseFrom place s words
        | _ => positional s

/-- Parses the arguments of a program. -/
def parse (program : CommandSpec) (version : String) (args : List String) : Except UsageError Parsed :=
  parseFrom ⟨[program.name], program, version⟩ {} args

/-! ### The mode of an invocation -/

/-- The first value of a flag that was given; its type has to be the expected one. -/
def Matches.flag (ms : Matches) (id name : String) (expected : FlagType) :
    Except InvalidRequest (Option ArgValue) :=
  match ms.find? id with
  | none => .ok none
  | some m =>
    if !m.explicit then .ok none
    else if m.type ≠ expected then .error (.wrongFlagType name expected m.type)
    else .ok m.values.head?

/-- Flags that a command does not have, and flags that were not given, count as off. -/
def Matches.mode (ms : Matches) : Except InvalidRequest Mode := do
  let dryRun ← ms.flag "dry_run" "dry-run" .bool
  let output ← ms.flag "output" "output" .text
  let wait ← ms.flag "wait" "wait" .bool
  return Mode.ofFlags (dryRun = some (.truth true))
    (match output with
      | some (.text format) => some format
      | _ => none)
    (wait = some (.truth true))

end BuilderControl.CommandLine
