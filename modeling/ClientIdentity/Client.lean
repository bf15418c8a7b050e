import ClientIdentity.Credentials
import ClientIdentity.TrustRoots

namespace ClientIdentity

/-- How a client checks the certificate of a server. -/
inductive Verification where
  | none
  | roots (anchors : List Certificate)
  deriving DecidableEq, Repr

/-- What a client does in a handshake: the pair that it presents, and how it checks the server. -/
structure ClientConfig where
  pair : KeyPair
  verification : Verification
  deriving DecidableEq, Repr

namespace ClientConfig

/-- The trust roots of an environment; what goes wrong with them goes to the log only. -/
def loadRoots (files : FileSystem) (roots : TrustRoots) : Run (List Certificate) :=
  match roots.encoded files with
  | .ok ders => TrustRoots.anchors ders
  | .error fault => do
    Run.log .warn .client ("failed to load native root certificates: " ++ fault.message)
    return []

/-- How the server is checked: against the trust roots, or not at all. -/
def verificationFor (files : FileSystem) (roots : TrustRoots) (insecure : Bool) :
    Run Verification := do
  if insecure then
    Run.log .warn .client "server certificate verification is disabled"
    return .none
  else
    return .roots (← loadRoots files roots)

/-- The configuration that presents a pair. The key is loaded once more for it, and compared with
the certificate again. -/
def make (files : FileSystem) (roots : TrustRoots) (insecure : Bool) (pair : KeyPair) :
    Run ClientConfig := do
  let verification ← verificationFor files roots insecure
  let pair ← Run.ofExcept ((KeyPair.make pair.chain pair.key).mapError .clientConfig)
  return ⟨pair, verification⟩

/-- The signature scheme that the client chooses under an offer. -/
def chooseScheme (config : ClientConfig) (offer : List Nat) : Option Nat :=
  config.pair.signingKey.chooseScheme offer

end ClientConfig

/-- A client of a server. -/
structure Client where
  endpoint : String
  enclave : Option String
  /-- The identity of the client certificate, if its key reports one. -/
  identity : Option Identity
  config : ClientConfig
  insecure : Bool
  deriving DecidableEq, Repr

namespace Client

/-- What a client is made from, apart from its environment. -/
structure Surroundings where
  files : FileSystem
  roots : TrustRoots
  reader : SecretReader
  /-- The time, in seconds since the beginning of 1970. -/
  now : Nat

/-- The client that an environment describes. -/
def ofEnvironment (around : Surroundings) (environment : Environment) (enclave : Option String)
    (insecure : Bool) : Run Client := do
  let credentials ← Run.ofExcept (Credentials.resolve environment)
  let endpoint ← Run.ofExcept environment.endpoint
  let pair ← credentials.keyPair around.files around.reader around.now
  let config ← ClientConfig.make around.files around.roots insecure pair
  return {
    endpoint
    enclave := environment.enclaveFor enclave
    identity := pair.identity
    config
    insecure }

end Client

end ClientIdentity
