import ClientIdentity.Client
import ClientIdentity.CommandLine.Parsing
import ClientIdentity.Log
import ClientIdentity.Terminal

namespace ClientIdentity.CommandLine

/-- What the program leaves behind. -/
structure Transcript where
  /-- There is none if a signal ended the program. -/
  exitCode : Option Nat
  output : String
  errors : String
  deriving DecidableEq, Repr

/-- What the program is started in. -/
structure Setting where
  /-- The environment variables. -/
  lookup : String → Option Bytes
  files : FileSystem
  terminal : Terminal
  /-- Random bytes for a new key. -/
  freshKey : ApiKey
  /-- The time, in seconds since the beginning of 1970. -/
  now : Nat
  /-- How lines of the log show the time. -/
  stamp : String

namespace Setting

/-- The environment as clients see it. -/
def environment (setting : Setting) : Environment :=
  Environment.ofProcess setting.lookup

/-- What a client is made from. -/
def surroundings (setting : Setting) : Client.Surroundings where
  files := setting.files
  roots := TrustRoots.ofProcess setting.lookup
  reader := setting.terminal.reader
  now := setting.now

end Setting

/-- The lines that tell about a client. -/
def clientLines (client : Client) : String :=
  let enclave := match client.enclave with
    | some name => "Enclave    " ++ name ++ "\n"
    | none => ""
  let identity := match client.identity with
    | some identity => identity.text
    | none => "unknown"
  "Server     " ++ client.endpoint ++ "\n" ++ enclave ++ "Identity   " ++ identity ++ "\n"

/-- The lines that tell about a new key. -/
def keyLines (key : ApiKey) : String :=
  "API Key    " ++ key.text ++ "\n" ++ "Identity   " ++ key.identity.text ++ "\n"

/-- The least important lines of the log that are shown. -/
def Request.level (request : Request) : Level :=
  if request.verbose then .debug else .warn

/-- The making of the client that a request is about. -/
def clientRun (setting : Setting) (enclave : Option String) (insecure : Bool) : Run Client :=
  Client.ofEnvironment setting.surroundings setting.environment enclave insecure

/-- Carries out a request. -/
def Request.execute (setting : Setting) (request : Request) : Transcript :=
  match request.task with
  | .makeApiKey => ⟨some 0, keyLines setting.freshKey, ""⟩
  | .showIdentity enclave insecure =>
    let run := clientRun setting enclave insecure
    let seen := Log.showAll setting.stamp request.level run.events
    match run.outcome with
    | .ok client => ⟨some 0, clientLines client, seen⟩
    | .error error => ⟨some 1, "", seen ++ error.report⟩

/-- What the program leaves behind when it only shows a text. -/
def Halt.transcript : Halt → Transcript
  | .help command => ⟨some 0, helpText command, ""⟩
  | .version => ⟨some 0, versionText, ""⟩
  | .nothing => ⟨some 2, "", helpText .program⟩
  | .refused refusal command used => ⟨some 2, "", refusal.report command used⟩

/-- What comes of a command line if no signal ends the program. -/
def complete (setting : Setting) (arguments : List Bytes) : Transcript :=
  match parse arguments with
  | .error halt => halt.transcript
  | .ok request => request.execute setting

/-- What is shown when the program waits for a secret, if it does. -/
def pause? (setting : Setting) (arguments : List Bytes) : Option String :=
  match parse arguments with
  | .ok request@⟨.showIdentity enclave insecure, _⟩ =>
    let (before, rest) := (clientRun setting enclave insecure).events.span (·.question?.isNone)
    if setting.terminal.waits then
      (rest.head?.bind Event.question?).map fun question =>
        Log.showAll setting.stamp request.level before ++ question
    else none
  | _ => none

/-- Runs the program. A signal can only end it while it waits for a secret. -/
def run (setting : Setting) (arguments : List Bytes) : Transcript :=
  match pause? setting arguments with
  | some shown =>
    if setting.terminal.interrupts then ⟨none, "", shown⟩ else complete setting arguments
  | none => complete setting arguments

end ClientIdentity.CommandLine
