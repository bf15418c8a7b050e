import ClientIdentity.Curve.Weierstrass
import ClientIdentity.Der.Value
import ClientIdentity.Identity

namespace ClientIdentity

/-- The elliptic curves of keys that name their curve. -/
inductive NamedCurve where
  | p256
  | p384
  deriving DecidableEq, Repr

namespace NamedCurve

def curve : NamedCurve → Weierstrass.Curve
  | .p256 => Weierstrass.p256
  | .p384 => Weierstrass.p384

def identifier : NamedCurve → Bytes
  | .p256 => Der.ObjectIdentifier.p256
  | .p384 => Der.ObjectIdentifier.p384

end NamedCurve

/-- A public key. -/
inductive PublicKey where
  | rsa (modulus exponent : Nat)
  /-- A point of a curve, in its uncompressed form. -/
  | ecdsa (curve : NamedCurve) (point : Bytes)
  | ed25519 (key : Bytes)
  deriving DecidableEq, Repr

namespace PublicKey

/-- The contents of an algorithm identifier for RSA keys. -/
def rsaAlgorithm : Bytes :=
  Der.objectIdentifier Der.ObjectIdentifier.rsaEncryption ++ Der.null

/-- The contents of an algorithm identifier for keys on a curve. -/
def curveAlgorithm (curve : NamedCurve) : Bytes :=
  Der.objectIdentifier Der.ObjectIdentifier.ecPublicKey ++ Der.objectIdentifier curve.identifier

/-- The contents of an algorithm identifier for Ed25519, for keys and for signatures. -/
def ed25519Algorithm : Bytes :=
  Der.objectIdentifier Der.ObjectIdentifier.ed25519

/-- The contents of the algorithm identifier of a key. -/
def algorithm : PublicKey → Bytes
  | .rsa _ _ => rsaAlgorithm
  | .ecdsa curve _ => curveAlgorithm curve
  | .ed25519 _ => ed25519Algorithm

/-- The key itself, without its algorithm. -/
def bits : PublicKey → Bytes
  | .rsa modulus exponent => Der.sequence [Der.natural modulus, Der.natural exponent]
  | .ecdsa _ point => point
  | .ed25519 key => key

/-- The contents of the encoded key: the algorithm and the key. -/
def subjectInfoContents (key : PublicKey) : Bytes :=
  Der.encode .sequence key.algorithm ++ Der.bitString key.bits

/-- The encoded key. -/
def subjectInfo (key : PublicKey) : Bytes :=
  Der.encode .sequence key.subjectInfoContents

def identity (key : PublicKey) : Identity :=
  Identity.ofSubjectInfo key.subjectInfo

/-- The numbers of the signature schemes that a key can be used with, best first. -/
def schemes : PublicKey → List Nat
  | .rsa _ _ => [0x0806, 0x0805, 0x0804, 0x0601, 0x0501, 0x0401]
  | .ecdsa .p256 _ => [0x0403]
  | .ecdsa .p384 _ => [0x0503]
  | .ed25519 _ => [0x0807]

end PublicKey

end ClientIdentity
