import ClientIdentity.KeyFile

namespace ClientIdentity

/-- Where a key pair comes from. -/
inductive Credentials where
  /-- The text of an API key. -/
  | apiKey (text : String)
  /-- The paths of a certificate and of its key. -/
  | files (certificate key : String)
  deriving DecidableEq, Repr

namespace Credentials

/-- The value of a variable that must be set and not blank. -/
def required (value : Option String) (name : Variable) (missing : String) :
    Except Error String :=
  match value with
  | none => .error (.notSet name missing)
  | some text => if Blank.isBlankText text then .error (.blank name missing) else .ok text

/-- The credentials that an environment names. -/
def resolve (environment : Environment) : Except Error Credentials :=
  match environment.apiKey with
  | some text =>
    if environment.certificate.isSome then
      .error (.conflictingVariables .apiKey .certificate)
    else if environment.privateKey.isSome then
      .error (.conflictingVariables .apiKey .privateKey)
    else
      .ok (.apiKey text)
  | none => do
    let certificate ←
      required environment.certificate .certificate "no TLS client certificate"
    let key ← required environment.privateKey .privateKey "no TLS private key"
    return .files certificate key

/-- How credentials are shown: without the API key. -/
def describe : Credentials → String
  | .apiKey _ => "ApiKey(..)"
  | .files certificate key =>
    "FilePair \x7b cert: " ++ Quoted.quote certificate ++ ", key: " ++ Quoted.quote key ++ " \x7d"

/-- The key pair that credentials stand for, at the time `now`. -/
def keyPair (files : FileSystem) (reader : SecretReader) (now : Nat) :
    Credentials → Run KeyPair
  | .apiKey text =>
    match ApiKey.parse text with
    | .error fault => Run.fail (.malformedApiKey fault)
    | .ok key => do
      Run.log .info .credentials ("using API key with identity " ++ key.identity.text)
      key.keyPair now
  | .files certificate key => KeyFile.loadKeyPair files reader certificate key

end Credentials

namespace Environment

/-- The server to talk to. -/
def endpoint (environment : Environment) : Except Error String :=
  match environment.server with
  | none => .ok defaultServer
  | some text =>
    if Blank.isBlankText text then .error (.blank .server "no KES server endpoint") else .ok text

end Environment

end ClientIdentity
