namespace ClientIdentity.CommandLine

/-- The options. -/
inductive Flag where
  | verbose
  | insecure
  | enclave
  | help
  | version
  deriving DecidableEq, Repr

namespace Flag

/-- The letter behind one dash. -/
def short : Flag → Char
  | .verbose => 'v'
  | .insecure => 'k'
  | .enclave => 'e'
  | .help => 'h'
  | .version => 'V'

/-- The word behind two dashes. -/
def long : Flag → String
  | .verbose => "verbose"
  | .insecure => "insecure"
  | .enclave => "enclave"
  | .help => "help"
  | .version => "version"

/-- The name of the value of an option that takes one. -/
def valueName? : Flag → Option String
  | .enclave => some "ENCLAVE"
  | _ => none

/-- Whether the option takes a value. -/
def takesValue (flag : Flag) : Bool :=
  flag.valueName?.isSome

def summary : Flag → String
  | .verbose => "Print debug logs to standard error"
  | .insecure => "Skip verification of the server certificate"
  | .enclave => "Enclave to use instead of $KES_ENCLAVE"
  | .help => "Print help"
  | .version => "Print version"

/-- How messages show an option. -/
def text (flag : Flag) : String :=
  match flag.valueName? with
  | none => "--" ++ flag.long
  | some name => "--" ++ flag.long ++ " <" ++ name ++ ">"

end Flag

/-- The program and its subcommands. -/
inductive Command where
  | program
  | identity
  | apiKey
  | help
  deriving DecidableEq, Repr

namespace Command

def name : Command → String
  | .program => "kes-auth"
  | .identity => "identity"
  | .apiKey => "api-key"
  | .help => "help"

/-- The name of a command behind that of the program. -/
def path : Command → String
  | .program => name .program
  | command => name .program ++ " " ++ command.name

def summary : Command → String
  | .program => "Mutual TLS client identity resolution for the KES command-line client"
  | .identity =>
    "Resolve the client credentials from the environment and print the identity"
  | .apiKey => "Generate a new API key"
  | .help => "Print this message or the help of the given subcommand(s)"

def subcommands : Command → List Command
  | .program => [.identity, .apiKey, .help]
  | _ => []

/-- The options that a command takes. -/
def flags : Command → List Flag
  | .program => [.verbose, .help, .version]
  | .identity => [.insecure, .enclave, .verbose, .help]
  | .apiKey => [.verbose, .help]
  | .help => []

/-- The options that a usage line may show as a choice: those that belong to the command, and not to
the program around it or to all commands. -/
def group : Command → List Flag
  | .program => [.verbose]
  | .identity => [.insecure, .enclave]
  | _ => []

/-- The options of a command in the order of its help. -/
def listedFlags : Command → List Flag
  | .identity => [.insecure, .verbose, .enclave, .help]
  | command => command.flags

/-- The option of a command with this letter. -/
def findShort? (command : Command) (letter : Char) : Option Flag :=
  command.flags.find? fun flag => flag.short == letter

/-- The option of a command with this word. -/
def findLong? (command : Command) (word : String) : Option Flag :=
  command.flags.find? fun flag => flag.long == word

/-- The subcommand of a command with this name. -/
def findSubcommand? (command : Command) (name : String) : Option Command :=
  command.subcommands.find? fun sub => sub.name == name

end Command

/-- The version of the program. -/
def programVersion : String := "0.1.0"

end ClientIdentity.CommandLine
