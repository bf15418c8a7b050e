import ClientIdentity.CommandLine.Similarity
import ClientIdentity.CommandLine.Usage
import ClientIdentity.Text.Utf8

namespace ClientIdentity.CommandLine

/-- What a command line asks for. -/
inductive Task where
  | showIdentity (enclave : Option String) (insecure : Bool)
  | makeApiKey
  deriving DecidableEq, Repr

/-- An accepted command line. -/
structure Request where
  task : Task
  verbose : Bool
  deriving DecidableEq, Repr

/-- Why the program does nothing else than to show a text. -/
inductive Halt where
  | help (command : Command)
  | version
  /-- Nothing at all was asked for. -/
  | nothing
  | refused (refusal : Refusal) (command : Command) (used : List Flag)
  deriving DecidableEq, Repr

/-- The option that still waits for its value to be looked at, if any: it may wait for the value
itself. -/
inductive Waiting where
  | no
  | forValue (flag : Flag)
  | withValue (flag : Flag) (value : Bytes)
  deriving DecidableEq, Repr

/-- What has been read of the arguments of a command. -/
structure Progress where
  /-- The options used, in order. -/
  used : List Flag
  enclave : Option String
  waiting : Waiting
  deriving DecidableEq, Repr

namespace Progress

def fresh : Progress := ⟨[], none, .no⟩

/-- Whether an option was used. -/
def has (progress : Progress) (flag : Flag) : Bool :=
  progress.used.contains flag

/-- Counts an option as used. -/
def use (progress : Progress) (flag : Flag) : Progress :=
  { progress with used := progress.used ++ [flag] }

/-- Gives an option its value. -/
def setValue (progress : Progress) (command : Command) (flag : Flag) (value : Bytes) :
    Except Halt Progress :=
  if progress.has flag then .error (.refused (.repeated flag) command [])
  else
    match Utf8.decode? value with
    | none => .error (.refused .notText command [])
    | some text => .ok { progress.use flag with enclave := some text }

/-- Looks at the value of the option that waits for it. -/
def settle (progress : Progress) (command : Command) : Except Halt Progress :=
  match progress.waiting with
  | .no => .ok progress
  | .forValue flag => .error (.refused (.missingValue flag) command [])
  | .withValue flag value => { progress with waiting := .no }.setValue command flag value

/-- The options used, with the one that waits if it has a value, whatever that is. An option that
waits for the second time does not count at all. -/
def settledUse (progress : Progress) : List Flag :=
  match progress.waiting with
  | .withValue flag _ =>
    if progress.has flag then progress.used.filter (· != flag) else progress.used ++ [flag]
  | _ => progress.used

/-- Reads an option without a value. -/
def readFlag (progress : Progress) (command : Command) (flag : Flag) : Except Halt Progress := do
  let progress ← progress.settle command
  match flag with
  | .help => throw (.help command)
  | .version => throw .version
  | flag =>
    if progress.has flag then throw (.refused (.repeated flag) command [])
    return progress.use flag

/-- Reads an option that takes a value, which may be attached to it. -/
def readValued (progress : Progress) (command : Command) (flag : Flag) (value : Option Bytes) :
    Except Halt Progress := do
  let progress ← progress.settle command
  match value with
  | some value => progress.setValue command flag value
  | none => return { progress with waiting := .forValue flag }

end Progress

/-- The byte between an option and an attached value. -/
def equalsSign : UInt8 := 0x3D

/-- The refusal of a word behind two dashes that is no option of the command. -/
def refuseLong (command : Command) (used : List Flag) (word : String) (rest : List Bytes) : Halt :=
  let meant (c : Command) :=
    (Similarity.candidates word (c.flags.map Flag.long)).getLast?.bind c.findLong?
  let written := "--" ++ word
  match meant command with
  | some flag => .refused (.similarFlag written flag) command used
  | none =>
    let later := rest.findSome? fun arg =>
      command.subcommands.findSome? fun sub =>
        if Utf8.encode sub.name = arg then (meant sub).map fun flag => (sub, flag) else none
    match later with
    | some (sub, flag) => .refused (.similarElsewhere written sub flag) command used
    | none => .refused (.unexpectedArgument written) command used

/-- Reads an argument that begins with two dashes, given what stands behind them. -/
def readLong (command : Command) (progress : Progress) (input : Bytes) (rest : List Bytes) :
    Except Halt Progress :=
  let word := input.takeWhile (· != equalsSign)
  let value := (input.dropWhile (· != equalsSign)).tail?
  match (Utf8.decode? word).bind command.findLong?, value with
  | none, _ => .error (refuseLong command progress.settledUse (Utf8.lossy word) rest)
  | some flag, value =>
    if flag.takesValue then progress.readValued command flag value
    else
      match value with
      | none => progress.readFlag command flag
      | some value =>
        .error (.refused (.unexpectedValue flag (Utf8.lossy value)) command progress.used)

/-- The value attached to an option of one letter: an equals sign in front of it is dropped. -/
def attachedValue (input : Bytes) : Option Bytes :=
  match input with
  | [] => none
  | first :: rest => if first = equalsSign then some rest else some (first :: rest)

/-- Reads the letters behind one dash; `junk` stands behind them and is no text. -/
def readShort (command : Command) (junk : Bytes) (progress : Progress) :
    List Char → Except Halt Progress
  | [] =>
    if junk = [] then .ok progress
    else .error (.refused (.unexpectedArgument ("-" ++ Utf8.lossy junk)) command [])
  | letter :: rest =>
    match command.findShort? letter with
    | none => .error (.refused (.unexpectedArgument ("-" ++ letter.toString)) command [])
    | some flag =>
      if flag.takesValue then
        progress.readValued command flag
          (attachedValue (Utf8.encode (String.ofList rest) ++ junk))
      else
        match progress.readFlag command flag with
        | .error halt => .error halt
        | .ok progress => readShort command junk progress rest

/-- The text that an input begins with, and the rest from its first fault on. -/
def splitText (input : Bytes) : String × Bytes :=
  match Utf8.decode input with
  | .ok text => (text, [])
  | .error fault => (Utf8.lossy (input.take fault.position), input.drop fault.position)

/-- The refusal of an argument that is no option. -/
def refuseOther (command : Command) (text : String) : Halt :=
  if command.subcommands.isEmpty then .refused (.unexpectedArgument text) command []
  else
    let similar := Similarity.candidates text (command.subcommands.map Command.name)
    .refused (.unknownSubcommand text similar) command []

/-- The help that is asked for by the names of commands. -/
def readHelp (command : Command) : List Bytes → Halt
  | [] => .help command
  | arg :: rest =>
    match (Utf8.decode? arg).bind command.findSubcommand? with
    | some sub => readHelp sub rest
    | none => .refused (.unknownSubcommand (Utf8.lossy arg) []) command []

/-- What a command is asked for at the end of its arguments. -/
def finish (command : Command) (progress : Progress) : Except Halt Request := do
  let progress ← progress.settle command
  let verbose := progress.has .verbose
  match command with
  | .identity => return ⟨.showIdentity progress.enclave (progress.has .insecure), verbose⟩
  | .apiKey => return ⟨.makeApiKey, verbose⟩
  | .help => throw (.help .help)
  | .program =>
    if progress.used.isEmpty then throw .nothing
    else throw (.refused .missingSubcommand command [])

/-- What is asked for behind the end of the options, where no argument may stand. -/
def readTrailing (command : Command) (progress : Progress) : List Bytes → Except Halt Request
  | [] => finish command progress
  | arg :: _ =>
    let text := Utf8.lossy arg
    if ((Utf8.decode? arg).bind command.findSubcommand?).isSome then
      .error (.refused (.subcommandBehindDashes text) command [])
    else
      .error (refuseOther command text)

/-- Reads an argument that is neither a subcommand nor the end of the options. -/
def readArgument (command : Command) (progress : Progress) (arg : Bytes) (rest : List Bytes) :
    Except Halt Progress :=
  let dash : UInt8 := 0x2D
  match arg, progress.waiting with
  | 0x2D :: 0x2D :: input, _ => readLong command progress input rest
  | [0x2D], .forValue flag => .ok { progress with waiting := .withValue flag [dash] }
  | [0x2D], _ => .error (refuseOther command "-")
  | 0x2D :: input, _ =>
    let (text, junk) := splitText input
    readShort command junk progress text.toList
  | arg, .forValue flag => .ok { progress with waiting := .withValue flag arg }
  | arg, _ => .error (refuseOther command (Utf8.lossy arg))

/-- The subcommand that an argument names. The value of an option names none. -/
def subcommandAt? (command : Command) (progress : Progress) (arg : Bytes) : Option Command :=
  match progress.waiting with
  | .forValue _ => none
  | _ => (Utf8.decode? arg).bind command.findSubcommand?

/-- Reads the arguments of a command. -/
def readArguments (command : Command) (progress : Progress) :
    List Bytes → Except Halt Request
  | [] => finish command progress
  | arg :: rest =>
    match subcommandAt? command progress arg with
    | some .help => .error (readHelp command rest)
    | some sub =>
      match readArguments sub .fresh rest with
      | .error halt => .error halt
      | .ok request => .ok { request with verbose := request.verbose || progress.has .verbose }
    | none =>
      if arg = Utf8.encode "--" then readTrailing command progress rest
      else
        match readArgument command progress arg rest with
        | .error halt => .error halt
        | .ok progress => readArguments command progress rest

/-- Reads a command line, without the name of the program. -/
def parse (arguments : List Bytes) : Except Halt Request :=
  readArguments .program .fresh arguments

end ClientIdentity.CommandLine
