import ClientIdentity.Proofs.Certificate.SelfSigned
import ClientIdentity.Proofs.Curve.Ed25519
import ClientIdentity.Proofs.Key.Envelope
import ClientIdentity.Proofs.KeyPair

namespace ClientIdentity

namespace PublicKey

/-- What stands in front of every encoded Ed25519 key. -/
def ed25519Prefix : Bytes :=
  [0x30, 0x2A, 0x30, 0x05, 0x06, 0x03, 0x2B, 0x65, 0x70, 0x03, 0x21, 0x00]

/-- The encoding of an Ed25519 public key is a fixed prefix followed by the key. -/
theorem subjectInfo_ed25519 {key : Bytes} (hkey : key.length = 32) :
    (ed25519 key).subjectInfo = ed25519Prefix ++ key := by
  have hbits : Der.bitString key = [0x03, 0x21, 0x00] ++ key := by
    rw [Der.bitString, Der.encode, List.length_cons, hkey]
    rfl
  have halgorithm : Der.encode .sequence ed25519Algorithm =
      [0x30, 0x05, 0x06, 0x03, 0x2B, 0x65, 0x70] := by decide
  have hcontents : (ed25519 key).subjectInfoContents =
      [0x30, 0x05, 0x06, 0x03, 0x2B, 0x65, 0x70, 0x03, 0x21, 0x00] ++ key := by
    rw [subjectInfoContents, bits, algorithm, halgorithm, hbits]
    rfl
  rw [subjectInfo, hcontents, Der.encode, List.length_append, hkey]
  rfl

theorem length_subjectInfoContents_ed25519 {key : Bytes} (hkey : key.length = 32) :
    (ed25519 key).subjectInfoContents.length ≤ 100 := by
  have hwhole := Der.length_le_length_encode .sequence (ed25519 key).subjectInfoContents
  have hlength := congrArg List.length (subjectInfo_ed25519 hkey)
  rw [List.length_append, hkey] at hlength
  have hprefix : ed25519Prefix.length = 12 := rfl
  unfold subjectInfo at hlength
  omega

end PublicKey

namespace ApiKey

open DerivedCertificate (commonName)

section CommonName

/-- A name of one attribute, the common name (2.5.4.3), up to its value of 64 bytes: a set with one
sequence of the object identifier and a UTF-8 string. -/
def commonNamePrefix : Bytes :=
  [0x31, 0x49, 0x30, 0x47, 0x06, 0x03, 0x55, 0x04, 0x03, 0x0C, 0x40]

theorem length_encode_hex {digest : Bytes} (h : digest.length = 32) :
    (Utf8.encode (Hex.encode digest)).length = 64 := by
  have hchars : (Hex.encode digest).length = 64 := by
    rw [Hex.encode, String.length_ofList, List.length_flatMap]
    simp [h]
  have hascii : ∀ c ∈ (Hex.encode digest).toList, c.val ≤ 127 := by
    intro c hc
    have hdigit := Hex.digit_of_value? (Hex.digits_of_decode? (Hex.decode?_encode digest) c hc)
    rw [UInt32.le_iff_toNat_le]
    have hnat : c.val.toNat = c.toNat := rfl
    have hbound : (127 : UInt32).toNat = 127 := rfl
    omega
  rw [Utf8.length_encode_of_ascii hascii, hchars]

/-- The contents of a name whose common name is a digest of 32 bytes: a fixed prefix followed by the
64 hexadecimal digits. -/
theorem commonName_hex {digest : Bytes} (h : digest.length = 32) :
    commonName (Hex.encode digest) = commonNamePrefix ++ Utf8.encode (Hex.encode digest) := by
  have htext := length_encode_hex h
  have hvalue : Der.encode .utf8String (Utf8.encode (Hex.encode digest)) =
      [0x0C, 0x40] ++ Utf8.encode (Hex.encode digest) := by
    rw [Der.encode, htext]
    rfl
  have hpart : Der.sequence [Der.objectIdentifier Der.ObjectIdentifier.commonName,
      Der.encode .utf8String (Utf8.encode (Hex.encode digest))] =
      [0x30, 0x47, 0x06, 0x03, 0x55, 0x04, 0x03, 0x0C, 0x40] ++
        Utf8.encode (Hex.encode digest) := by
    have hidentifier : Der.objectIdentifier Der.ObjectIdentifier.commonName =
        [0x06, 0x03, 0x55, 0x04, 0x03] := by decide
    rw [Der.sequence, hvalue, hidentifier, List.flatten_cons, List.flatten_cons, List.flatten_nil,
      List.append_nil, Der.encode, List.length_append, List.length_append, htext]
    rfl
  rw [commonName, hpart, Der.encode, List.length_append, htext]
  rfl

end CommonName

section Derived

variable (key : ApiKey)

theorem subjectInfo_publicKey :
    key.publicKey.subjectInfo = PublicKey.ed25519Prefix ++ Ed25519.publicKey key.seed :=
  PublicKey.subjectInfo_ed25519 (Ed25519.length_publicKey key.seed)

/-- What holds of a pair that is derived from an API key, and of the one certificate in it. -/
structure Derives (pair : KeyPair) (leaf : Bytes) (certificate : Certificate) : Prop where
  chain : pair.chain = [leaf]
  parse : Certificate.parse leaf = .ok certificate
  /-- The certificate names the public key of the seed. -/
  subjectInfo : Der.encode .sequence certificate.subjectInfo =
    PublicKey.ed25519Prefix ++ Ed25519.publicKey key.seed
  length_publicKey : (Ed25519.publicKey key.seed).length = 32
  /-- Issuer and subject are one common name, the digest of the key in hexadecimal digits. -/
  issuer : certificate.issuer = commonNamePrefix ++ Utf8.encode (Hex.encode key.identity.digest)
  subject : certificate.subject = commonNamePrefix ++ Utf8.encode (Hex.encode key.identity.digest)
  /-- The key and the pair have one identity, the digest of the public key in the certificate. -/
  identity : pair.identity = some key.identity
  digest : key.identity.digest = Sha256.digest (Der.encode .sequence certificate.subjectInfo)
  /-- The private key is an envelope of the seed, from which the same public key is loaded. -/
  kind : pair.key.kind = .pkcs8
  envelope : ∃ envelope, Envelope.decode? PublicKey.ed25519Algorithm true pair.key.der =
    some envelope ∧ envelope.secret = Der.octetString key.seed ∧
      envelope.publicKey = some (Ed25519.publicKey key.seed)
  publicKey : pair.key.publicKey? = some (.ed25519 (Ed25519.publicKey key.seed))

/-- What the certificate of a key says. -/
def leaf (now : Nat) : Certificate where
  issuer := commonName key.identity.text
  validity := encodeTime now ++ encodeTime (now + DerivedCertificate.lifetime)
  subject := commonName key.identity.text
  subjectInfo := key.publicKey.subjectInfoContents
  extensions := DerivedCertificate.knownExtensions

/-- `Certificate.parse` reads the certificate that a key has at a time of 64 bits. -/
theorem parse_certificate {now : Nat} (hnow : now < 2 ^ 64) :
    Certificate.parse (key.certificate now) = .ok (key.leaf now) := by
  have hsignature : (key.certificateSignature now).length ≤ 100 := by
    rw [certificateSignature, Ed25519.length_sign]
    decide
  have hinfo := PublicKey.length_subjectInfoContents_ed25519 (Ed25519.length_publicKey key.seed)
  have hlast : now + DerivedCertificate.lifetime < 2 ^ 65 := by
    simp only [DerivedCertificate.lifetime]
    omega
  exact (key.derivedCertificate now).parse_encode hsignature hinfo (show now < 2 ^ 65 by omega) hlast

/-- `ApiKey.keyPair` succeeds with the one certificate and the private key of the API key. -/
theorem outcome_keyPair {now : Nat} (hnow : now < 2 ^ 64) :
    (key.keyPair now).outcome =
      .ok ⟨[key.certificate now], key.privateKey, key.publicKey.signingKey⟩ := by
  have hbelongs : KeyPair.Belongs [key.certificate now] key.privateKey key.publicKey :=
    ⟨key.publicKey?_privateKey, _, _, _, rfl, key.parse_certificate hnow, rfl⟩
  have hmake : KeyPair.make [key.certificate now] key.privateKey =
      .ok ⟨[key.certificate now], key.privateKey, key.publicKey.signingKey⟩ :=
    KeyPair.make_eq_ok_iff.mpr ⟨_, hbelongs, rfl⟩
  rw [keyPair, Run.outcome_bind_eq_ok_iff]
  exact ⟨(), rfl, by rw [hmake]; rfl⟩

/-- At every time of 64 bits, an API key has a pair of one certificate and a private key. The certificate
holds the Ed25519 public key of the seed and the common name of its digest, the key, the pair and the
certificate agree on the identity, and the private key loads back to the same public key. -/
theorem exists_derived {now : Nat} (hnow : now < 2 ^ 64) :
    ∃ pair leaf certificate, (key.keyPair now).outcome = .ok pair ∧
      key.Derives pair leaf certificate := by
  have hdigest : key.identity.digest = Sha256.digest key.publicKey.subjectInfo := rfl
  have henvelope := key.decode?_privateKey PublicKey.ed25519Algorithm true
  rw [if_pos ⟨rfl, rfl⟩] at henvelope
  refine ⟨_, key.certificate now, key.leaf now, key.outcome_keyPair hnow, ?_⟩
  exact {
    chain := rfl
    parse := key.parse_certificate hnow
    subjectInfo := key.subjectInfo_publicKey
    length_publicKey := Ed25519.length_publicKey key.seed
    issuer := commonName_hex (Sha256.length_digest _)
    subject := commonName_hex (Sha256.length_digest _)
    identity := rfl
    digest := hdigest
    kind := rfl
    envelope := ⟨_, henvelope, rfl, rfl⟩
    publicKey := key.publicKey?_privateKey }

end Derived

/-- The key whose seed is all zeros. -/
def sampleKey : ApiKey := ⟨List.replicate 32 0, rfl⟩

theorem exists_derived_sampleKey :
    0 < 2 ^ 64 ∧ ∃ pair leaf certificate, (sampleKey.keyPair 0).outcome = .ok pair ∧
      sampleKey.Derives pair leaf certificate :=
  ⟨by decide, exists_derived sampleKey (by decide)⟩

end ApiKey

end ClientIdentity
