import ClientIdentity.Certificate.SelfSigned
import ClientIdentity.Key.Loading
import ClientIdentity.Run

namespace ClientIdentity

/-- Certificates, the leaf first, with the private key of the leaf as it is encoded and as it has been
loaded. -/
structure KeyPair where
  chain : List Bytes
  key : PrivateKey
  signingKey : SigningKey
  deriving DecidableEq, Repr

namespace KeyPair

/-- The leaf of a chain. -/
def leaf (chain : List Bytes) : Except PairFault Certificate :=
  match chain with
  | [] => .error .noCertificates
  | first :: _ => (Certificate.parse first).mapError .badCertificate

/-- Compares the public half of a key with the leaf of a chain. -/
def keysMatch (chain : List Bytes) (signingKey : SigningKey) : Except PairFault Unit :=
  match signingKey.publicKey with
  | none => .error .unknown
  | some publicKey =>
    match leaf chain with
    | .error fault => .error fault
    | .ok certificate =>
      if Der.encode .sequence certificate.subjectInfo = publicKey.subjectInfo then .ok ()
      else .error .mismatch

/-- The pair of a chain and a key. A key that does not report its public half is trusted. -/
def make (chain : List Bytes) (key : PrivateKey) : Except PairFault KeyPair :=
  match key.load? with
  | none => .error .unusableKey
  | some signingKey =>
    match keysMatch chain signingKey with
    | .ok () => .ok ⟨chain, key, signingKey⟩
    | .error .unknown => .ok ⟨chain, key, signingKey⟩
    | .error fault => .error fault

/-- The identity of the public key, if the key reports it. -/
def identity (pair : KeyPair) : Option Identity :=
  pair.signingKey.publicKey.map PublicKey.identity

/-- How a pair is shown without its key. -/
def describe (pair : KeyPair) : String :=
  let count := toString pair.chain.length
  let identity := match pair.identity with
    | some identity => "Some(" ++ identity.describe ++ ")"
    | none => "None"
  "KeyPair \x7b certificates: " ++ count ++ ", identity: " ++ identity ++ ", .. \x7d"

end KeyPair

namespace ApiKey

/-- The pair of an API key and its certificate, valid from `now` on. -/
def keyPair (key : ApiKey) (now : Nat) : Run KeyPair := do
  Run.log .debug .apiKey ("generated client certificate for identity " ++ key.identity.text)
  Run.ofExcept ((KeyPair.make [key.certificate now] key.privateKey).mapError .keyPair)

end ApiKey

end ClientIdentity
