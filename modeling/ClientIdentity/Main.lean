import ClientIdentity.Calendar
import ClientIdentity.CommandLine.Execution
import Std.Time.DateTime.Timestamp

namespace ClientIdentity.Main

/-- The variables that the program looks at. -/
def environment : IO (List (String × Bytes)) := do
  let names :=
    [.server, .apiKey, .certificate, .privateKey, .enclave].map Variable.name ++
      [TrustRoots.fileVariable, TrustRoots.directoryVariable]
  names.filterMapM fun name => do
    return (← IO.getEnv name).map fun value => (name, Utf8.encode value)

/-- The fault that the system has a number for. Some of its numbers are negative. -/
def faultOfNumber (number : UInt32) (text : String) : SystemFault :=
  .ofNumber number.toInt32.toInt.natAbs text

/-- Why a file was not read. -/
def faultOf : IO.Error → SystemFault
  | .noFileOrDirectory _ number text => faultOfNumber number text
  | .inappropriateType _ number text => faultOfNumber number text
  | .permissionDenied _ number text => faultOfNumber number text
  | .invalidArgument _ number text => faultOfNumber number text
  | .resourceExhausted _ number text => faultOfNumber number text
  | .noSuchThing _ number text => faultOfNumber number text
  | .otherError number text => faultOfNumber number text
  | error => .other error.toString

/-- What is found at a path. -/
def reading (path : Bytes) : IO (Bytes × Except SystemFault Bytes) := do
  try
    let contents ← IO.FS.readBinFile (Utf8.lossy path)
    return (path, .ok contents.data.toList)
  catch error =>
    return (path, .error (faultOf error))

/-- What is found at the paths that variables name. -/
def readings (environment : List (String × Bytes)) :
    IO (List (Bytes × Except SystemFault Bytes)) := do
  let names :=
    [Variable.certificate.name, Variable.privateKey.name, TrustRoots.fileVariable]
  (names.filterMap fun name => environment.lookup name).mapM reading

/-- A new key. -/
def freshKey : IO ApiKey := do
  let seed := (← IO.getRandomBytes 32).data.toList
  if h : seed.length = 32 then
    return ⟨seed, h⟩
  else
    throw (IO.userError "too few random bytes")

/-- What the program runs in. Nothing has been typed yet. -/
def setting : IO CommandLine.Setting := do
  let environment ← environment
  let readings ← readings environment
  let microseconds := (← Std.Time.Timestamp.now).toNanosecondsSinceUnixEpoch.val.toNat / 1000
  return {
    lookup := fun name => environment.lookup name
    files := .ofReadings readings
    terminal := ⟨← (← IO.getStderr).isTty, true, [], []⟩
    freshKey := ← freshKey
    now := microseconds / 1000000
    stamp := writeMoment microseconds }

/-- The strokes of the line that is typed. A line that is no text is typed as such. -/
def strokes (keyboard : IO.FS.Handle) : IO Bytes := do
  try
    return Terminal.literally (Utf8.encode (← keyboard.getLine))
  catch _ =>
    return [0xFF]

/-- A terminal at which a line has been typed. -/
def typedAt (terminal : Terminal) : IO Terminal := do
  try
    return { terminal with typed := ← strokes (← IO.FS.Handle.mk "/dev/tty" .read) }
  catch _ =>
    return { terminal with readable := false }

/-- Shows what comes of a run, but for the first characters of its errors. -/
def present (transcript : CommandLine.Transcript) (shown : Nat) : IO UInt32 := do
  (← IO.getStderr).putStr (String.ofList (transcript.errors.toList.drop shown))
  (← IO.getStdout).putStr transcript.output
  return (transcript.exitCode.getD 1).toUInt32

end ClientIdentity.Main

open ClientIdentity in
def main (args : List String) : IO UInt32 := do
  let arguments := args.map Utf8.encode
  let setting ← Main.setting
  match CommandLine.pause? setting arguments with
  | none => Main.present (CommandLine.run setting arguments) 0
  | some shown =>
    let errors ← IO.getStderr
    errors.putStr shown
    errors.flush
    let setting := { setting with terminal := ← Main.typedAt setting.terminal }
    Main.present (CommandLine.run setting arguments) shown.length
