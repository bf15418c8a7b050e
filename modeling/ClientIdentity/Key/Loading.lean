import ClientIdentity.Curve.Ed25519
import ClientIdentity.Der.Reader
import ClientIdentity.Key.PrivateKey
import ClientIdentity.Key.PublicKey

namespace ClientIdentity

open Der

/-- The secret part of a key that names its algorithm, and the public key beside it. -/
structure Envelope where
  secret : Bytes
  publicKey : Option Bytes

namespace Envelope

/-- Reads a public key beside the secret one, under its own tag or as a wrapped bit string. -/
def readPublicKey : Reader Bytes := do
  if ← Reader.beginsWith (.wrapper 1) then
    Reader.within (.wrapper 1) (Reader.bitString .bitString)
  else
    Reader.bitString (.simple 1)

/-- Reads an envelope for an algorithm. Attributes are passed over. A public key must stand there
exactly if the version is one, which only some algorithms allow. -/
def read (algorithm : Bytes) (allowPublicKey : Bool) : Reader Envelope := do
  let version ← Reader.natural
  let actual ← Reader.element .sequence
  Reader.require (actual == algorithm)
  Reader.require (version == 0 || (version == 1 && allowPublicKey))
  let secret ← Reader.element .octetString
  let _ ← Reader.optional (.wrapper 0)
  if version == 1 then
    return ⟨secret, some (← readPublicKey)⟩
  else
    return ⟨secret, none⟩

/-- The envelope that an encoding holds. -/
def decode? (algorithm : Bytes) (allowPublicKey : Bool) (der : Bytes) : Option Envelope :=
  Reader.all? (Reader.within .sequence (read algorithm allowPublicKey)) der

end Envelope

/-- The numbers of an RSA key: the modulus, both exponents, the prime factors, the exponents for
each of these, and the inverse of the second factor. -/
structure RsaNumbers where
  n : Nat
  e : Nat
  d : Nat
  p : Nat
  q : Nat
  dp : Nat
  dq : Nat
  qInverse : Nat

namespace RsaNumbers

/-- Reads the numbers behind a version of zero. -/
def read : Reader RsaNumbers := do
  Reader.require ((← Reader.natural) == 0)
  let n ← Reader.natural
  let e ← Reader.natural
  let d ← Reader.natural
  let p ← Reader.natural
  let q ← Reader.natural
  let dp ← Reader.natural
  let dq ← Reader.natural
  let qInverse ← Reader.natural
  return { n, e, d, p, q, dp, dq, qInverse }

/-- The number of binary digits. -/
def bitLength (n : Nat) : Nat :=
  if n = 0 then 0 else Nat.log2 n + 1

/-- The number of binary digits of each factor. -/
def halfLength (numbers : RsaNumbers) : Nat :=
  (bitLength numbers.n + 1) / 2

/-- Whether a number is odd and has as many binary digits as half of the modulus. -/
def isFactorSized (numbers : RsaNumbers) (factor : Nat) : Bool :=
  factor % 2 == 1 && bitLength factor == numbers.halfLength

/-- Whether the modulus has at least 2048 binary digits, counted in whole bytes, and at most
4096. -/
def hasUsableModulus (numbers : RsaNumbers) : Bool :=
  numbers.n % 2 == 1 && 2048 ≤ (bitLength numbers.n + 7) / 8 * 8 && bitLength numbers.n ≤ 4096

/-- Whether the public exponent is odd and of between 17 and 33 binary digits. -/
def hasUsableExponent (numbers : RsaNumbers) : Bool :=
  numbers.e % 2 == 1 && 65537 ≤ numbers.e && numbers.e < Nat.pow 2 33

/-- Whether the factors are of the right size and make up the modulus. -/
def hasUsableFactors (numbers : RsaNumbers) : Bool :=
  numbers.halfLength % 512 == 0 && numbers.isFactorSized numbers.p &&
    numbers.isFactorSized numbers.q && numbers.p * numbers.q % numbers.n == 0

/-- Whether the private exponent is odd, below the modulus and longer than half of it. -/
def hasUsablePrivateExponent (numbers : RsaNumbers) : Bool :=
  numbers.d % 2 == 1 && numbers.d < numbers.n && numbers.halfLength < bitLength numbers.d

/-- Whether the numbers that speed up signing fit the factors. -/
def hasUsableShortcuts (numbers : RsaNumbers) : Bool :=
  numbers.dp % 2 == 1 && numbers.dp < numbers.p && numbers.dq % 2 == 1 &&
    numbers.dq < numbers.q && numbers.qInverse < numbers.p &&
    numbers.qInverse * numbers.q % numbers.p == 1

def isUsable (numbers : RsaNumbers) : Bool :=
  numbers.hasUsableModulus && numbers.hasUsableExponent && numbers.hasUsableFactors &&
    numbers.hasUsablePrivateExponent && numbers.hasUsableShortcuts

/-- The numbers of an RSA key in its own format, if the key can be used. -/
def decode? (der : Bytes) : Option RsaNumbers := do
  let numbers ← Reader.all? (Reader.within .sequence read) der
  if numbers.isUsable then some numbers else none

end RsaNumbers

namespace PublicKey

/-- The public key of an RSA key in its own format. -/
def ofRsa? (der : Bytes) : Option PublicKey :=
  (RsaNumbers.decode? der).map fun numbers => .rsa numbers.n numbers.e

/-- Reads the secret number of a key on a curve: behind a version of one, with the curve's name if
there is one, and with its public point, which must be the right one. -/
def readScalar (curve : NamedCurve) : Reader PublicKey := do
  Reader.require ((← Reader.natural) == 1)
  let secret ← Reader.element .octetString
  Reader.require (secret.length == curve.curve.width)
  let scalar := Bytes.toNat secret
  Reader.require (0 < scalar && scalar < curve.curve.order)
  let named ← Reader.optional (.wrapper 0)
  Reader.require (named.all (· == Der.objectIdentifier curve.identifier))
  let point ← Reader.within (.wrapper 1) (Reader.bitString .bitString)
  Reader.require (point == curve.curve.publicPoint scalar)
  return .ecdsa curve point

/-- The public key of a key on a curve in its own format. -/
def ofCurve? (curve : NamedCurve) (der : Bytes) : Option PublicKey :=
  Reader.all? (Reader.within .sequence (readScalar curve)) der

/-- The public key of an Ed25519 key in an envelope. -/
def ofEd25519Envelope? (envelope : Envelope) : Option PublicKey := do
  let seed ← Reader.all? (Reader.element .octetString) envelope.secret
  let key := Ed25519.publicKey seed
  if seed.length = 32 ∧ envelope.publicKey.all (· == key) then some (.ed25519 key) else none

end PublicKey

namespace PrivateKey

/-- The encoding of an RSA key in its own format. -/
def rsaEncoding? (key : PrivateKey) : Option Bytes :=
  match key.kind with
  | .pkcs1 => some key.der
  | .sec1 => none
  | .pkcs8 => (Envelope.decode? PublicKey.rsaAlgorithm false key.der).map Envelope.secret

/-- The encoding of a key on a curve in its own format. -/
def curveEncoding? (curve : NamedCurve) (key : PrivateKey) : Option Bytes :=
  match key.kind with
  | .pkcs1 => none
  | .sec1 => some key.der
  | .pkcs8 =>
    (Envelope.decode? (PublicKey.curveAlgorithm curve) false key.der).map Envelope.secret

/-- The envelope of an Ed25519 key. -/
def ed25519Envelope? (key : PrivateKey) : Option Envelope :=
  match key.kind with
  | .pkcs8 => Envelope.decode? PublicKey.ed25519Algorithm true key.der
  | _ => none

/-- The public half of a key, if the key can be used. -/
def publicKey? (key : PrivateKey) : Option PublicKey :=
  (key.rsaEncoding? >>= PublicKey.ofRsa?) <|>
  (key.curveEncoding? .p256 >>= PublicKey.ofCurve? .p256) <|>
  (key.curveEncoding? .p384 >>= PublicKey.ofCurve? .p384) <|>
  (key.ed25519Envelope? >>= PublicKey.ofEd25519Envelope?)

end PrivateKey

/-- A private key that has been loaded to sign with. -/
structure SigningKey where
  /-- The public half, if keys of this type report it. -/
  publicKey : Option PublicKey
  /-- The numbers of the signature schemes that the key signs under, best first. -/
  schemes : List Nat
  deriving DecidableEq, Repr

/-- The signing key with a given public half. -/
def PublicKey.signingKey (key : PublicKey) : SigningKey :=
  ⟨some key, key.schemes⟩

namespace SigningKey

/-- The scheme that the key signs under, given an offer. The order of the offer does not count. -/
def chooseScheme (key : SigningKey) (offer : List Nat) : Option Nat :=
  key.schemes.find? offer.contains

end SigningKey

/-- Loads a key. All algorithms that are loaded report their public half. -/
def PrivateKey.load? (key : PrivateKey) : Option SigningKey :=
  key.publicKey?.map PublicKey.signingKey

end ClientIdentity
