import ClientIdentity.Curve.Ed25519
import ClientIdentity.Key.PrivateKey
import ClientIdentity.Key.PublicKey
import ClientIdentity.Text.Base64
import ClientIdentity.Text.Utf8

namespace ClientIdentity

/-- An API key. -/
structure ApiKey where
  seed : Bytes
  length_seed : seed.length = 32
  deriving DecidableEq

namespace ApiKey

/-- What every written key begins with. -/
def marker : Bytes := Utf8.encode "kes:v1:"

/-- The type of an Ed25519 key. -/
def ed25519Type : UInt8 := 0

/-- Why a text is no API key. -/
inductive Fault where
  | missingMarker
  | badText (fault : Base64.Fault)
  /-- The type and the seed together have the wrong length. -/
  | invalidLength (length : Nat)
  | unsupportedType (type : UInt8)
  deriving DecidableEq, Repr

def Fault.message : Fault → String
  | .missingMarker => "missing 'kes:v1:' prefix"
  | .badText fault => "invalid base64 encoding: " ++ fault.message
  | .invalidLength length => s!"invalid length {length}"
  | .unsupportedType type => s!"unsupported key type {type.toNat}"

/-- The messages of the faults behind a fault. -/
def Fault.causes : Fault → List String
  | .badText fault => [fault.message]
  | _ => []

/-- The key that a type and a seed make up. -/
def ofBytes : Bytes → Except Fault ApiKey
  | [] => .error (.invalidLength 0)
  | type :: seed =>
    if h : seed.length = 32 then
      if type = ed25519Type then .ok ⟨seed, h⟩ else .error (.unsupportedType type)
    else
      .error (.invalidLength (seed.length + 1))

/-- The key that a text is written for. -/
def parse (text : String) : Except Fault ApiKey :=
  let input := Utf8.encode text
  if marker.isPrefixOf input then
    match Base64.decode (input.drop marker.length) with
    | .error fault => .error (.badText fault)
    | .ok bytes => ofBytes bytes
  else
    .error .missingMarker

/-- The bytes of a written key. -/
def encode (key : ApiKey) : Bytes :=
  marker ++ Base64.encode (ed25519Type :: key.seed)

/-- The written key. -/
def text (key : ApiKey) : String :=
  Utf8.lossy key.encode

def publicKey (key : ApiKey) : PublicKey :=
  .ed25519 (Ed25519.publicKey key.seed)

/-- The identity of every certificate that is derived from the key. -/
def identity (key : ApiKey) : Identity :=
  key.publicKey.identity

/-- How a key is shown without its seed. -/
def describe (key : ApiKey) : String :=
  "ApiKey \x7b identity: " ++ key.identity.describe ++ ", .. \x7d"

/-- The key with its public half, in an envelope that names the algorithm. -/
def privateKey (key : ApiKey) : PrivateKey where
  kind := .pkcs8
  der := Der.sequence [
    Der.natural 1,
    Der.encode .sequence PublicKey.ed25519Algorithm,
    Der.octetString (Der.octetString key.seed),
    Der.encode (.simple 1) (0 :: Ed25519.publicKey key.seed)]

end ApiKey

end ClientIdentity
