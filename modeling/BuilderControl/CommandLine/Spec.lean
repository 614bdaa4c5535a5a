import BuilderControl.Error

/-! # Shape of a command line

A command has arguments, which are flags, options or positional values, and subcommands.  Every
command shows its help on request; a command with subcommands also has one that shows theirs. -/

namespace BuilderControl.CommandLine

/-- What the values of an argument have to be. -/
inductive ValueType where
  | text
  /-- Text that is not empty. -/
  | path
  | unsigned64
  | truth
  | resourceType
deriving DecidableEq, Inhabited

/-- What giving an argument does. -/
inductive ArgAction where
  /-- Sets the value; it may be given once. -/
  | set
  /-- Adds a value. -/
  | append
  /-- Turns a flag on; it may be given once. -/
  | switch
  /-- Counts how often a flag is given. -/
  | count
  | showHelp
  | showVersion
deriving DecidableEq, Inhabited

structure Arg where
  id : String
  short : Option Char := none
  long : Option String := none
  help : String := ""
  valueName : String := ""
  required : Bool := false
  /-- Takes any number of positional values. -/
  many : Bool := false
  default : Option String := none
  action : ArgAction := .set
  type : ValueType := .text
deriving DecidableEq, Inhabited

namespace Arg

def isPositional (a : Arg) : Bool := a.short.isNone && a.long.isNone

def takesValue (a : Arg) : Bool :=
  match a.action with
  | .set | .append => true
  | _ => false

/-- How an argument is named in messages and in help. -/
def label (a : Arg) : String :=
  if a.isPositional then
    (if a.required then "<" ++ a.valueName ++ ">" else "[" ++ a.valueName ++ "]")
      ++ (if a.many then "..." else "")
  else
    (match a.long, a.short with
      | some long, _ => "--" ++ long
      | none, some short => "-" ++ short.toString
      | none, none => "")
    ++ (if a.takesValue then " <" ++ a.valueName ++ ">" else "")

/-- Type of the values as a command sees them. -/
def flagType (a : Arg) : FlagType :=
  match a.action, a.type with
  | .switch, _ | .set, .truth | .append, .truth => .bool
  | .count, _ => .count
  | _, .unsigned64 => .unsigned64
  | _, _ => .text

end Arg

inductive CommandSpec where
  | mk (name : String) (aliases : List String) (about : String) (args : List Arg)
    (subcommands : List CommandSpec)
deriving Inhabited

namespace CommandSpec

def name : CommandSpec → String
  | mk name _ _ _ _ => name

def aliases : CommandSpec → List String
  | mk _ aliases _ _ _ => aliases

def about : CommandSpec → String
  | mk _ _ about _ _ => about

def args : CommandSpec → List Arg
  | mk _ _ _ args _ => args

def subcommands : CommandSpec → List CommandSpec
  | mk _ _ _ _ subcommands => subcommands

def helpArg : Arg :=
  { id := "help", short := some 'h', long := some "help", help := "Print help", action := .showHelp }

def versionArg : Arg :=
  { id := "version", short := some 'V', long := some "version", help := "Print version"
    action := .showVersion }

/-- The command that shows the help of other commands. -/
def helpCommand : CommandSpec :=
  mk "help" [] "Print this message or the help of the given subcommand(s)"
    [{ id := "subcommand", valueName := "COMMAND", many := true
       help := "Print help for the subcommand(s)" }] []

def isCalled (c : CommandSpec) (word : String) : Bool := c.name = word || word ∈ c.aliases

/-- The subcommand of a name or alias. -/
def find? (c : CommandSpec) (word : String) : Option CommandSpec :=
  c.subcommands.find? (·.isCalled word)

def positionals (c : CommandSpec) : List Arg := c.args.filter Arg.isPositional

def options (c : CommandSpec) : List Arg := c.args.filter fun a => !a.isPositional

end CommandSpec

end BuilderControl.CommandLine
