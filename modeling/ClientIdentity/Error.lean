import ClientIdentity.ApiKey
import ClientIdentity.Certificate.Parsing
import ClientIdentity.Environment
import ClientIdentity.FileSystem.Basic
import ClientIdentity.Pem.Encryption

namespace ClientIdentity

/-- Why a key and certificates make up no pair. -/
inductive PairFault where
  /-- No section of the key file holds a key of a known kind. -/
  | unsupportedTag (tag : String)
  /-- The key cannot be read back from its block. -/
  | unreadable (fault : Pem.Section.Fault)
  /-- The key belongs to no algorithm. -/
  | unusableKey
  | noCertificates
  | badCertificate (fault : Certificate.Fault)
  /-- The key is not the one in the certificate. -/
  | mismatch
  /-- The key does not report its public half. -/
  | unknown
  deriving DecidableEq, Repr

def PairFault.message : PairFault → String
  | .unsupportedTag tag => s!"unsupported private key type '{tag}'"
  | .unreadable fault => fault.message
  | .unusableKey => "unexpected error: failed to parse private key as RSA, ECDSA, or EdDSA"
  | .noCertificates => "peer sent no certificates"
  | .badCertificate fault => fault.message
  | .mismatch => "keys may not be consistent: KeyMismatch"
  | .unknown => "keys may not be consistent: Unknown"

/-- Why there is no client. -/
inductive Error where
  /-- Variables that exclude each other are both set. -/
  | conflictingVariables (first second : Variable)
  | notSet (unset : Variable) (missing : String)
  | blank (empty : Variable) (missing : String)
  | malformedApiKey (fault : ApiKey.Fault)
  | readCertificate (path : String) (fault : FileFault)
  | readPrivateKey (path : String) (fault : SystemFault)
  | noCertificate (path : String)
  | noPrivateKey
  /-- There is no terminal to ask at. -/
  | notInteractive
  | prompt (fault : SystemFault)
  | incorrectPassword
  | decrypt (fault : Pem.Encryption.Fault)
  | keyPair (fault : PairFault)
  /-- A pair is refused when it is built into a configuration. -/
  | clientConfig (fault : PairFault)
  deriving DecidableEq, Repr

namespace Error

/-- The error of a block that is not decrypted. -/
def ofDecryption : Pem.Encryption.Fault → Error
  | .incorrectPassword => .incorrectPassword
  | fault => .decrypt fault

def message : Error → String
  | .conflictingVariables first second =>
    let a := first.name
    let b := second.name
    s!"two conflicting environment variables set: unset either '{a}' or '{b}'"
  | .notSet unset missing =>
    let name := unset.name
    s!"{missing}. Environment variable '{name}' is not set"
  | .blank empty missing =>
    let name := empty.name
    s!"{missing}. Environment variable '{name}' is empty"
  | .malformedApiKey fault => "invalid API key: " ++ fault.message
  | .readCertificate path fault =>
    s!"failed to load TLS certificate '{path}': " ++ fault.message
  | .readPrivateKey path fault =>
    s!"failed to load TLS private key '{path}': " ++ fault.message
  | .noCertificate path =>
    s!"failed to load TLS certificate: no PEM-encoded certificate found in '{path}'"
  | .noPrivateKey => "failed to read TLS private key: no PEM-encoded private key found"
  | .notInteractive =>
    "failed to read private key password: standard error is not a terminal"
  | .prompt fault => "failed to read private key password: " ++ fault.message
  | .incorrectPassword => "incorrect password"
  | .decrypt fault => "failed to decrypt private key: " ++ fault.message
  | .keyPair fault => "failed to load TLS private key or certificate: " ++ fault.message
  | .clientConfig fault => "failed to build TLS client configuration: " ++ fault.message

/-- The messages of the faults behind an error, the nearest first. -/
def causes : Error → List String
  | .malformedApiKey fault => fault.message :: fault.causes
  | .readCertificate _ fault => [fault.message]
  | .readPrivateKey _ fault => [fault.message]
  | .prompt fault => [fault.message]
  | .decrypt fault => [fault.message]
  | .clientConfig fault => [fault.message]
  | _ => []

end Error

end ClientIdentity
