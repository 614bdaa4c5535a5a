import BuilderControl.CommandLine.Spec

/-! # Help of a command

Help has the command's purpose, its usage, and a table for its subcommands, its positional arguments
and its options.  The texts of a table stand in a column of their own, or, if that column would be
too narrow for one of them, on lines of their own. -/

namespace BuilderControl.CommandLine

def spaces (n : Nat) : String := String.ofList (List.replicate n ' ')

/-- How an invocation of a command is written; `route` is the program and the commands before it. -/
def usage (route : List String) (c : CommandSpec) : String :=
  let isPlain (a : Arg) : Bool := a.action ≠ .showHelp && a.action ≠ .showVersion && !a.required
  let optional := if c.options.any isPlain then ["[OPTIONS]"] else []
  let needed := (c.options.filter (·.required)).map Arg.label
  let positional := c.positionals.map Arg.label
  let subcommand := if c.subcommands.isEmpty then [] else ["<COMMAND>"]
  "Usage: " ++ " ".intercalate (route ++ optional ++ needed ++ positional ++ subcommand)

/-- A row of a table: what stands left of the text, the width by which rows are aligned, and the
text. -/
structure HelpRow where
  lead : String
  width : Nat
  text : String

/-- Columns of a line of help. -/
def helpWidth : Nat := 100

/-- Whether the column of texts would be too narrow; `margin` is what the leads take beyond their
width. -/
def isNarrow (margin : Nat) (rows : List HelpRow) : Bool :=
  let longest := rows.foldl (fun n r => max n r.width) 2
  let taken := longest + margin
  taken ≤ helpWidth && helpWidth * 2 < taken * 5 && rows.any fun r => helpWidth - taken < r.text.length

def table (margin : Nat) (rows : List HelpRow) : String :=
  let longest := rows.foldl (fun n r => max n r.width) 2
  let narrow := isNarrow margin rows
  "\n".intercalate (rows.map fun r =>
    "  " ++ r.lead ++
      (if narrow then "\n" ++ spaces 10 else spaces (longest + 2 - r.width)) ++ r.text)

/-- The text of an argument, with its default. -/
def helpText (a : Arg) : String :=
  match a.default with
  | some value =>
    if a.takesValue then (if a.help = "" then "" else a.help ++ " ") ++ "[default: " ++ value ++ "]"
    else a.help
  | none => a.help

def positionalRow (a : Arg) : HelpRow := ⟨a.label, a.label.length, helpText a⟩

def optionRow (a : Arg) : HelpRow :=
  let short := match a.short, a.long with
    | some c, some _ => "-" ++ c.toString ++ ", "
    | none, some _ => spaces 4
    | _, none => ""
  ⟨short ++ a.label, a.label.length, helpText a⟩

def subcommandRow (c : CommandSpec) : HelpRow :=
  let known := match c.aliases with
    | [] => ""
    | [a] => " [alias: " ++ a ++ "]"
    | as => " [aliases: " ++ ", ".intercalate as ++ "]"
  ⟨c.name, c.name.length, c.about ++ known⟩

/-- A section with a heading, if it has any rows. -/
def section' (heading : String) (margin : Nat) (rows : List HelpRow) : List String :=
  if rows.isEmpty then [] else [heading ++ ":\n" ++ table margin rows]

/-- The help of a command. -/
def help (route : List String) (c : CommandSpec) : String :=
  let sections := section' "Commands" 12 (c.subcommands.map subcommandRow)
    ++ section' "Arguments" 4 (c.positionals.map positionalRow)
    ++ section' "Options" 12 (c.options.map optionRow)
  "\n\n".intercalate (c.about :: usage route c :: sections) ++ "\n"

end BuilderControl.CommandLine
