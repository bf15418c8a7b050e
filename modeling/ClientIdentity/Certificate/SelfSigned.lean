import ClientIdentity.ApiKey
import ClientIdentity.Certificate.Validity

namespace ClientIdentity

/-- What is signed in a derived certificate. -/
structure DerivedCertificate where
  publicKey : PublicKey
  validity : Validity
  deriving DecidableEq, Repr

namespace DerivedCertificate

/-- The number of seconds for which a derived certificate is valid. -/
def lifetime : Nat := 90 * 86400

/-- A name of one part. -/
def name (commonName : String) : Bytes :=
  Der.sequence [Der.encode .set (Der.sequence [
    Der.objectIdentifier Der.ObjectIdentifier.commonName,
    Der.encode .utf8String (Utf8.encode commonName)])]

/-- The third version. -/
def version : Bytes :=
  Der.encode (.wrapper 0) (Der.natural 2)

/-- The algorithm of the signature. -/
def algorithm : Bytes :=
  Der.encode .sequence PublicKey.ed25519Algorithm

/-- The serial number: the first twenty bytes of the digest of the key, without their top bit. -/
def serial (certificate : DerivedCertificate) : Bytes :=
  Der.natural (Bytes.toNat ((Sha256.digest certificate.publicKey.bits).take 20) % Nat.pow 2 159)

/-- The name of the issuer and of the subject. -/
def party (certificate : DerivedCertificate) : Bytes :=
  name certificate.publicKey.identity.text

/-- An extension of a certificate. -/
def extension (last : UInt8) (critical : Bool) (value : Bytes) : Bytes :=
  Der.sequence ([Der.objectIdentifier (Der.ObjectIdentifier.extension last)] ++
    (if critical then [Der.encode .boolean [0xFF]] else []) ++ [Der.octetString value])

/-- The key signs, and nothing else. -/
def keyUsage : Bytes :=
  extension 15 true (Der.encode .bitString [7, 0x80, 0])

/-- The certificate authenticates clients. -/
def extendedKeyUsage : Bytes :=
  extension 37 false
    (Der.sequence [Der.objectIdentifier Der.ObjectIdentifier.clientAuthentication])

/-- The key is known by the first bytes of its digest. -/
def keyIdentifier (certificate : DerivedCertificate) : Bytes :=
  extension 14 false
    (Der.octetString ((Sha256.digest certificate.publicKey.subjectInfo).take 20))

/-- The certificate issues no others. -/
def basicConstraints : Bytes :=
  extension 19 true (Der.sequence [Der.encode .boolean [0]])

def extensions (certificate : DerivedCertificate) : Bytes :=
  Der.encode (.wrapper 3)
    (Der.sequence [keyUsage, extendedKeyUsage, certificate.keyIdentifier, basicConstraints])

/-- The elements of what is signed, in order, in front of the validity. -/
def leading (certificate : DerivedCertificate) : List Bytes :=
  [version, certificate.serial, algorithm, certificate.party]

/-- The elements of what is signed, in order, behind the validity. -/
def trailing (certificate : DerivedCertificate) : List Bytes :=
  [certificate.party, certificate.publicKey.subjectInfo, certificate.extensions]

/-- What is signed. -/
def signed (certificate : DerivedCertificate) : Bytes :=
  Der.sequence (certificate.leading ++ [certificate.validity.encode] ++ certificate.trailing)

/-- The whole certificate with a signature. -/
def encode (certificate : DerivedCertificate) (signature : Bytes) : Bytes :=
  Der.sequence [certificate.signed, algorithm, Der.bitString signature]

end DerivedCertificate

namespace ApiKey

/-- The certificate of a key, valid from `now` on. -/
def derivedCertificate (key : ApiKey) (now : Nat) : DerivedCertificate where
  publicKey := key.publicKey
  validity := ⟨now, now + DerivedCertificate.lifetime⟩

/-- The signature of the key under its certificate. -/
def certificateSignature (key : ApiKey) (now : Nat) : Bytes :=
  Ed25519.sign key.seed (key.derivedCertificate now).signed

/-- The encoded certificate of a key, valid from `now` on. -/
def certificate (key : ApiKey) (now : Nat) : Bytes :=
  (key.derivedCertificate now).encode (key.certificateSignature now)

end ApiKey

end ClientIdentity
