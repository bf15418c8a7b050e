import ClientIdentity.CommandLine.Grammar
import ClientIdentity.Text.ControlSequence

namespace ClientIdentity.CommandLine

/-- The usage of a command. -/
def plainUsage : Command → String
  | .program => Command.path .program ++ " [OPTIONS] <COMMAND>"
  | .help => Command.path .help ++ " [COMMAND]..."
  | command => command.path ++ " [OPTIONS]"

/-- Options of which any may be used. -/
def choice (flags : List Flag) : List String :=
  if flags.isEmpty then [] else ["<" ++ "|".intercalate (flags.map Flag.text) ++ ">"]

/-- The usage of a command with some of its options, each shown once; those that stand in a choice
are shown only there. -/
def usage (command : Command) (flags alternatives : List Flag) : String :=
  if flags.isEmpty then plainUsage command
  else
    let single := flags.eraseDups.filter fun flag => !alternatives.contains flag
    let rest := if command.subcommands.isEmpty then [] else ["<COMMAND>"]
    " ".intercalate ([command.path] ++ single.map Flag.text ++ choice alternatives ++ rest)

/-- Lines of two columns. -/
def table (rows : List (String × String)) : String :=
  let width := (rows.map fun row => row.1.length).foldl max 0
  String.join (rows.map fun (name, text) =>
    "  " ++ name ++ "".pushn ' ' (width - name.length) ++ "  " ++ text ++ "\n")

/-- A part of a help text, if it has any lines. -/
def helpPart (title : String) (rows : List (String × String)) : String :=
  if rows.isEmpty then "" else "\n" ++ title ++ ":\n" ++ table rows

/-- The help text of a command. -/
def helpText (command : Command) : String :=
  let flagRow (flag : Flag) := ("-" ++ flag.short.toString ++ ", " ++ flag.text, flag.summary)
  let subcommandRow (sub : Command) := (sub.name, sub.summary)
  let arguments :=
    if command = .help then [("[COMMAND]...", "Print help for the subcommand(s)")] else []
  command.summary ++ "\n\nUsage: " ++ plainUsage command ++ "\n" ++
    helpPart "Commands" (command.subcommands.map subcommandRow) ++
    helpPart "Arguments" arguments ++
    helpPart "Options" (command.listedFlags.map flagRow)

/-- The line that tells the version. -/
def versionText : String :=
  Command.name .program ++ " " ++ programVersion ++ "\n"

/-- Why a command line is refused. -/
inductive Refusal where
  /-- The similar commands are those that may have been meant. -/
  | unknownSubcommand (text : String) (similar : List String)
  | unexpectedArgument (text : String)
  /-- The option may have been meant. -/
  | similarFlag (text : String) (flag : Flag)
  /-- An option of a subcommand may have been meant. -/
  | similarElsewhere (text : String) (sub : Command) (flag : Flag)
  /-- A subcommand behind the end of the options. -/
  | subcommandBehindDashes (text : String)
  | missingValue (flag : Flag)
  | unexpectedValue (flag : Flag) (value : String)
  | repeated (flag : Flag)
  | notText
  | missingSubcommand
  deriving DecidableEq, Repr

namespace Refusal

/-- The message about an argument that may not stand where it does. -/
def unexpected (text : String) : String :=
  let shown := ControlSequence.remove text
  s!"unexpected argument '{shown}' found"

/-- The message of a refusal. -/
def message : Refusal → String
  | .unknownSubcommand text _ =>
    let shown := ControlSequence.remove text
    s!"unrecognized subcommand '{shown}'"
  | .unexpectedArgument text => unexpected text
  | .similarFlag text _ => unexpected text
  | .similarElsewhere text _ _ => unexpected text
  | .subcommandBehindDashes text => unexpected text
  | .missingValue flag =>
    let option := flag.text
    s!"a value is required for '{option}' but none was supplied"
  | .unexpectedValue flag value =>
    let option := flag.text
    let shown := ControlSequence.remove value
    s!"unexpected value '{shown}' for '{option}' found; no more were expected"
  | .repeated flag =>
    let option := flag.text
    s!"the argument '{option}' cannot be used multiple times"
  | .notText => "invalid UTF-8 was detected in one or more arguments"
  | .missingSubcommand =>
    let program := Command.name .program
    let names := ", ".intercalate ((Command.subcommands .program).map Command.name)
    s!"'{program}' requires a subcommand but one was not provided\n  [subcommands: {names}]"

/-- What may have been meant. -/
def tip? : Refusal → Option String
  | .unknownSubcommand _ [] => none
  | .unknownSubcommand _ [name] => some s!"a similar subcommand exists: '{name}'"
  | .unknownSubcommand _ names =>
    let quoted := ", ".intercalate (names.map fun name => s!"'{name}'")
    some ("some similar subcommands exist: " ++ quoted)
  | .similarFlag _ flag =>
    let word := flag.long
    some s!"a similar argument exists: '--{word}'"
  | .similarElsewhere _ sub flag =>
    let name := sub.name
    let word := flag.long
    some s!"'{name} --{word}' exists"
  | .subcommandBehindDashes text =>
    some s!"subcommand '{text}' exists; to use it, remove the '--' before it"
  | _ => none

/-- Whether the usage line is shown. -/
def showsUsage : Refusal → Bool
  | .missingValue _ => false
  | _ => true

/-- The option that the usage line shows beside those that have been used. -/
def meant? : Refusal → Option Flag
  | .similarFlag _ flag => some flag
  | .unexpectedValue flag _ => some flag
  | _ => none

/-- The options that the usage line shows as a choice: about a value that is not expected, the
command's own options if one of them has been used. -/
def alternatives (refusal : Refusal) (command : Command) (used : List Flag) : List Flag :=
  match refusal with
  | .unexpectedValue _ _ => if used.any command.group.contains then command.group else []
  | _ => []

/-- The usage line of a refusal. -/
def usageLine (refusal : Refusal) (command : Command) (used : List Flag) : String :=
  usage command (used ++ refusal.meant?.toList) (refusal.alternatives command used)

/-- Where more can be read, if the command has a help option. -/
def pointer (command : Command) : String :=
  if command.flags.contains .help then "\n\nFor more information, try '--help'.\n" else "\n"

/-- The whole text of a refusal by a command that some options have been used of. -/
def report (refusal : Refusal) (command : Command) (used : List Flag) : String :=
  let tip := match refusal.tip? with
    | none => ""
    | some tip => "\n\n  tip: " ++ tip
  let line :=
    if refusal.showsUsage then "\n\nUsage: " ++ refusal.usageLine command used else ""
  "error: " ++ refusal.message ++ tip ++ line ++ pointer command

end Refusal

end ClientIdentity.CommandLine
