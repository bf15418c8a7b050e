import ClientIdentity.Certificate.SelfSigned
import ClientIdentity.Proofs.Certificate.Layout
import ClientIdentity.Proofs.Certificate.Validity
import ClientIdentity.Proofs.Hash.Sha2
import ClientIdentity.Proofs.Text.Hex
import ClientIdentity.Proofs.Text.Utf8

namespace ClientIdentity

open Der

namespace Certificate

open Reader

section Extensions

variable {purpose : Purpose} {seen more : Extensions} {contents rest : Bytes}

/-- `extensionsOf` reads an encoded extension in front of others, and then the others. -/
theorem extensionsOf_encode (hfits : contents.length ≤ certificateLimit)
    (h : allOr .badEncoding (readExtension purpose seen) contents = .ok more) :
    extensionsOf purpose seen (encode .sequence contents ++ rest) =
      extensionsOf purpose more rest := by
  have hread : read? certificateLimit .sequence (encode .sequence contents ++ rest) =
      some (contents, rest) := (read?_eq_some_iff (by decide)).mpr ⟨rfl, hfits⟩
  rw [extensionsOf, if_neg (by simp [encode])]
  split
  · rename_i hnone
    simp [hread] at hnone
  · rename_i found left hsome
    rw [hread] at hsome
    obtain ⟨rfl, rfl⟩ := Prod.mk.inj (Option.some.inj hsome)
    rw [h]

theorem extensionsOf_nil : extensionsOf purpose seen [] = .ok seen := by
  rw [extensionsOf, if_pos rfl]

theorem readExtensions_encode (hfits : (encode .sequence contents).length ≤ certificateLimit)
    (h : extensionsOf purpose [] contents = .ok more) :
    readExtensions purpose (encode (.wrapper 3) (encode .sequence contents)) = .ok (more, []) := by
  have hcontents := Nat.le_trans (length_le_length_encode .sequence contents) hfits
  simp only [readExtensions, bind_eq_ok_iff]
  refine ⟨false, _, rfl, ?_⟩
  simp only [Bool.false_eq_true, if_false, bind_eq_ok_iff, within_eq_ok_iff]
  refine ⟨encode .sequence contents, (List.append_nil _).symm, hfits, contents,
    (List.append_nil _).symm, hcontents, contents, [], rfl, ?_⟩
  rw [h]
  rfl

/-- `readFlag` reads an encoded truth value, and false where there is none. -/
theorem readFlag_eq_ok (critical : Bool) (value : Bytes) :
    readFlag ((if critical then [encode .boolean [0xFF]] else []).flatten ++ octetString value) =
      .ok (critical, octetString value) := by
  cases critical with
  | false => rfl
  | true =>
    simp only [readFlag, bind_eq_ok_iff]
    refine ⟨true, _, rfl, ?_⟩
    simp only [if_true, within_eq_ok_iff, bind_eq_ok_iff]
    exact ⟨[0xFF], by simp, by decide, some 0xFF, [], rfl, rfl⟩

variable {last : UInt8} {critical : Bool} {value : Bytes}

/-- The bytes of `extension`. -/
theorem extension_eq (last : UInt8) (critical : Bool) (value : Bytes) :
    DerivedCertificate.extension last critical value =
      encode .sequence (encode .objectIdentifier (ObjectIdentifier.extension last) ++
        ((if critical then [encode .boolean [0xFF]] else []).flatten ++ octetString value)) := by
  simp [DerivedCertificate.extension, Der.sequence, objectIdentifier, List.flatten_append]

/-- An extension whose value has at most `bound` bytes has at most 16 bytes more. -/
theorem length_extension_le {bound : Nat} (hbound : bound ≤ 65000) (h : value.length ≤ bound) :
    (DerivedCertificate.extension last critical value).length ≤ bound + 16 := by
  have hvalue : (octetString value).length ≤ bound + 4 := length_encode_le (by omega) h
  have hidentifier : (encode .objectIdentifier (ObjectIdentifier.extension last)).length = 5 := rfl
  have hflag : ((if critical then [encode .boolean [0xFF]] else []).flatten).length ≤ 3 := by
    cases critical <;> decide
  rw [extension_eq]
  refine @length_encode_le _ _ (bound + 12) (by omega) ?_
  rw [List.length_append, List.length_append]
  omega

/-- What a leaf's extension adds to those that have been seen: what is understood is kept with its
contents, and what is neither understood nor critical is passed over. -/
inductive Adds (seen : Extensions) (last : UInt8) (critical : Bool) (value : Bytes) :
    Extensions → Prop
  | known {extension : KnownExtension} {contents : Bytes}
      (hknown : KnownExtension.ofIdentifier? (ObjectIdentifier.extension last) = some extension)
      (hnew : (seen.any fun known => known.1 == extension) = false)
      (hcontents : extensionContents extension value = .ok contents) :
      Adds seen last critical value (seen ++ [(extension, contents)])
  | unknown (hunknown : KnownExtension.ofIdentifier? (ObjectIdentifier.extension last) = none)
      (hcritical : critical = false) : Adds seen last critical value seen

theorem extensionsOf_extension (hfits : value.length ≤ 65000)
    (h : Adds seen last critical value more) :
    extensionsOf purpose seen (DerivedCertificate.extension last critical value ++ rest) =
      extensionsOf purpose more rest := by
  have hlimit : value.length ≤ certificateLimit := Nat.le_trans hfits (by decide)
  have hwhole : (DerivedCertificate.extension last critical value).length ≤ 65000 + 16 :=
    length_extension_le (by decide) hfits
  rw [extension_eq] at hwhole ⊢
  have hcontents := Nat.le_trans (length_le_length_encode _ _) hwhole
  refine extensionsOf_encode (Nat.le_trans hcontents (by decide)) ?_
  rw [allOr_eq_ok_iff]
  simp only [readExtension, bind_eq_ok_iff, element_eq_ok_iff]
  have hidentifier : (ObjectIdentifier.extension last).length ≤ certificateLimit := by
    simp [ObjectIdentifier.extension, certificateLimit]
  refine ⟨_, _, ⟨rfl, hidentifier⟩, critical, _, readFlag_eq_ok critical value, value, [],
    ⟨(List.append_nil _).symm, hlimit⟩, ?_⟩
  cases h with
  | known hknown hnew hcontents =>
    simp only [hknown, hnew, Bool.false_eq_true, if_false, hcontents]
    rfl
  | unknown hunknown hcritical =>
    simp only [hunknown, hcritical, Bool.false_eq_true, false_and, if_false]
    rfl

end Extensions

end Certificate

namespace DerivedCertificate

open Certificate

variable (certificate : DerivedCertificate)

/-- The contents of a name of one part. -/
def commonName (text : String) : Bytes :=
  Der.encode .set (Der.sequence [objectIdentifier ObjectIdentifier.commonName,
    Der.encode .utf8String (Utf8.encode text)])

/-- The extensions of a derived certificate that are understood. -/
def knownExtensions : Extensions :=
  [(.keyUsage, Der.encode .bitString [7, 0x80, 0]),
    (.extendedKeyUsage, objectIdentifier ObjectIdentifier.clientAuthentication),
    (.basicConstraints, Der.encode .boolean [0])]

theorem length_keyIdentifier_le : certificate.keyIdentifier.length ≤ 40 := by
  have hvalue : (octetString ((Sha256.digest certificate.publicKey.subjectInfo).take 20)).length ≤
      20 + 4 := length_encode_le (by decide) (List.length_take_le _ _)
  exact length_extension_le (by decide) hvalue

/-- `extensionsOf` passes over the key identifier of a derived certificate and keeps its other
extensions. -/
theorem extensionsOf_derived :
    extensionsOf .leaf []
      [keyUsage, extendedKeyUsage, certificate.keyIdentifier, basicConstraints].flatten =
        .ok knownExtensions := by
  have hvalue : (octetString ((Sha256.digest certificate.publicKey.subjectInfo).take 20)).length ≤
      20 + 4 := length_encode_le (by decide) (List.length_take_le _ _)
  have husage : Adds [] 15 true (Der.encode .bitString [7, 0x80, 0]) (knownExtensions.take 1) :=
    .known rfl rfl rfl
  have hextended : Adds (knownExtensions.take 1) 37 false
      (Der.sequence [Der.objectIdentifier Der.ObjectIdentifier.clientAuthentication])
      (knownExtensions.take 2) :=
    @Adds.known _ _ _ _ .extendedKeyUsage _ rfl rfl rfl
  have hconstraints : Adds (knownExtensions.take 2) 19 true
      (Der.sequence [Der.encode .boolean [0]]) knownExtensions :=
    @Adds.known _ _ _ _ .basicConstraints _ rfl rfl rfl
  simp only [List.flatten_cons, keyUsage, extendedKeyUsage, keyIdentifier, basicConstraints]
  rw [extensionsOf_extension (by decide) husage, extensionsOf_extension (by decide) hextended,
    extensionsOf_extension (by omega) (.unknown rfl rfl),
    extensionsOf_extension (by decide) hconstraints]
  exact extensionsOf_nil

theorem length_extensions_le :
    (Der.sequence [keyUsage, extendedKeyUsage, certificate.keyIdentifier,
      basicConstraints]).length ≤ 204 := by
  have hidentifier := certificate.length_keyIdentifier_le
  have hlengths : keyUsage.length + extendedKeyUsage.length + basicConstraints.length ≤ 100 := by
    decide
  refine @length_encode_le _ _ 200 (by decide) ?_
  simp only [List.flatten_cons, List.flatten_nil, List.length_append, List.length_nil]
  omega

theorem readExtensions_extensions :
    readExtensions .leaf certificate.extensions = .ok (knownExtensions, []) :=
  readExtensions_encode (Nat.le_trans certificate.length_extensions_le (by decide))
    certificate.extensionsOf_derived

/-- The parts of a derived certificate with a signature. -/
def layout (signature : Bytes) : Certificate.Layout where
  serial := naturalContents
    (Bytes.toNat ((Sha256.digest certificate.publicKey.bits).take 20) % Nat.pow 2 159)
  algorithm := PublicKey.ed25519Algorithm
  issuer := commonName certificate.publicKey.identity.text
  validity := encodeTime certificate.validity.notBefore ++ encodeTime certificate.validity.notAfter
  subject := commonName certificate.publicKey.identity.text
  subjectInfo := certificate.publicKey.subjectInfoContents
  extensions := certificate.extensions
  signature

theorem encode_layout (signature : Bytes) :
    certificate.encode signature = (certificate.layout signature).encode := by
  have hversion : version = Certificate.Layout.version := by decide
  simp only [encode, signed, leading, trailing, hversion, Certificate.Layout.encode,
    Certificate.Layout.signed, Certificate.Layout.publicKeyInfo, layout, algorithm, party, name,
    commonName, serial, natural, Validity.encode, PublicKey.subjectInfo, Der.sequence,
    List.flatten_cons, List.flatten_nil, List.append_nil, List.cons_append, List.nil_append]

section Length

variable {certificate}

theorem length_commonName_le (identity : Identity) (h : identity.digest.length = 32) :
    (commonName identity.text).length ≤ 300 := by
  have htext : (Utf8.encode identity.text).length ≤ 256 := by
    have hchars : identity.text.length = 64 := by
      rw [Identity.text, Hex.encode, String.length_ofList, List.length_flatMap]
      simp [h]
    have hbytes := Utf8.length_encode_le identity.text
    omega
  have hvalue : (Der.encode .utf8String (Utf8.encode identity.text)).length ≤ 260 :=
    length_encode_le (by decide) htext
  have hidentifier : (objectIdentifier ObjectIdentifier.commonName).length = 5 := rfl
  have hpart : (Der.sequence [objectIdentifier ObjectIdentifier.commonName,
      Der.encode .utf8String (Utf8.encode identity.text)]).length ≤ 270 := by
    refine @length_encode_le _ _ 266 (by decide) ?_
    simp only [List.flatten_cons, List.flatten_nil, List.length_append, List.length_nil]
    omega
  exact Nat.le_trans (length_encode_le (by decide) hpart) (by decide)

/-- A derived certificate has at most 4000 bytes if its times are below 2 ^ 65, and its public key
and its signature have at most 100 bytes each. -/
theorem length_layout_le {signature : Bytes} (hsignature : signature.length ≤ 100)
    (hinfo : certificate.publicKey.subjectInfoContents.length ≤ 100)
    (hfirst : certificate.validity.notBefore < 2 ^ 65)
    (hlast : certificate.validity.notAfter < 2 ^ 65) :
    (certificate.layout signature).encode.length ≤ 4000 := by
  have hbits : Bytes.toNat ((Sha256.digest certificate.publicKey.bits).take 20) % Nat.pow 2 159 <
      2 ^ (8 * 20) := Nat.lt_trans (Nat.mod_lt _ (by decide)) (by decide)
  have hvalidity := Validity.length_encode_le hfirst hlast
  simp only [Validity.encode, Der.sequence, List.flatten_cons, List.flatten_nil, List.append_nil]
    at hvalidity
  have hparty := length_commonName_le certificate.publicKey.identity (Sha256.length_digest _)
  generalize hlayout : certificate.layout signature = parts
  have hversion : Certificate.Layout.version.length = 5 := rfl
  have hserial : (Der.encode .integer parts.serial).length ≤ 25 :=
    hlayout ▸ length_encode_le (by decide) (length_naturalContents_le (by decide) hbits)
  have halgorithm : (Der.encode .sequence parts.algorithm).length = 7 := hlayout ▸ rfl
  have hissuer : (Der.encode .sequence parts.issuer).length ≤ 304 :=
    hlayout ▸ length_encode_le (by decide) hparty
  have hvalidity : (Der.encode .sequence parts.validity).length ≤ 1300 := hlayout ▸ hvalidity
  have hsubject : (Der.encode .sequence parts.subject).length ≤ 304 :=
    hlayout ▸ length_encode_le (by decide) hparty
  have hinfo : parts.publicKeyInfo.length ≤ 104 := hlayout ▸ length_encode_le (by decide) hinfo
  have hextensions : parts.extensions.length ≤ 208 :=
    hlayout ▸ length_encode_le (by decide) certificate.length_extensions_le
  have hsignature : (Der.bitString parts.signature).length ≤ 105 :=
    hlayout ▸ length_encode_le (by decide) (Nat.succ_le_succ hsignature)
  have hsigned : parts.signed.length ≤ 3004 := by
    refine @length_encode_le _ _ 3000 (by decide) ?_
    simp only [List.flatten_cons, List.flatten_nil, List.length_append, List.length_nil]
    omega
  refine Nat.le_trans (@length_encode_le _ _ 3500 (by decide) ?_) (by decide)
  simp only [List.flatten_cons, List.flatten_nil, List.length_append, List.length_nil]
  omega

/-- `Certificate.parse` of a derived certificate returns its public key and, as issuer and subject,
the identity of the key. -/
theorem parse_encode {signature : Bytes} (hsignature : signature.length ≤ 100)
    (hinfo : certificate.publicKey.subjectInfoContents.length ≤ 100)
    (hfirst : certificate.validity.notBefore < 2 ^ 65)
    (hlast : certificate.validity.notAfter < 2 ^ 65) :
    Certificate.parse (certificate.encode signature) = .ok {
      issuer := commonName certificate.publicKey.identity.text
      validity := encodeTime certificate.validity.notBefore ++
        encodeTime certificate.validity.notAfter
      subject := commonName certificate.publicKey.identity.text
      subjectInfo := certificate.publicKey.subjectInfoContents
      extensions := knownExtensions } := by
  rw [certificate.encode_layout signature]
  refine Certificate.decode_encode ?_ certificate.readExtensions_extensions
  exact Nat.le_trans (length_layout_le hsignature hinfo hfirst hlast) (by decide)

end Length

end DerivedCertificate

end ClientIdentity
