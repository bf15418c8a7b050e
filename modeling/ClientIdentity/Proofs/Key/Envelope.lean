import ClientIdentity.ApiKey
import ClientIdentity.Key.Loading
import ClientIdentity.Proofs.Curve.Ed25519
import ClientIdentity.Proofs.Der.Element

namespace ClientIdentity

open Der

namespace Der.Reader

variable {α β : Type} {tag : Tag} {contents rest : Bytes}

theorem bind_apply (reader : Reader α) (next : α → Reader β) (input : Bytes) :
    (reader >>= next) input = (reader input).bind fun outcome => next outcome.1 outcome.2 := rfl

theorem pure_apply (value : α) (input : Bytes) : (pure value : Reader α) input = some (value, input) :=
  rfl

theorem element_encode (hfits : contents.length ≤ keyLimit) :
    element tag (encode tag contents ++ rest) = some (contents, rest) :=
  (read?_eq_some_iff (by decide)).mpr ⟨rfl, hfits⟩

theorem all?_eq_some_iff {reader : Reader α} {input : Bytes} {value : α} :
    all? reader input = some value ↔ reader input = some (value, []) := by
  unfold all?
  split <;> simp_all

/-- `within` of an encoded element is the outcome of the reader on its contents. -/
theorem within_encode (hfits : contents.length ≤ keyLimit) (reader : Reader α) :
    within tag reader (encode tag contents ++ rest) =
      (all? reader contents).map fun value => (value, rest) := by
  have hread : read? keyLimit tag (encode tag contents ++ rest) = some (contents, rest) :=
    element_encode hfits
  simp only [within, hread]

/-- `natural` of a written number returns the number. -/
theorem natural_encode {n : Nat} (hfits : (naturalContents n).length ≤ keyLimit) (rest : Bytes) :
    natural (Der.natural n ++ rest) = some (n, rest) := by
  have hvalue := toNat_naturalContents n
  rw [natural, bind_apply, Der.natural, element_encode hfits, Option.bind_some]
  obtain h | ⟨first, more, h, hzero, hlow⟩ | ⟨first, more, h, hhigh⟩ := naturalContents_cases n
  · rw [h] at hvalue
    rw [h, ← hvalue]
    rfl
  · rw [h] at hvalue
    simp [h, hzero, hlow, bind_apply, pure_apply, require, hvalue]
  · rw [h, Bytes.toNat_zero_cons] at hvalue
    simp [h, hhigh, bind_apply, pure_apply, require, hvalue]

end Der.Reader

open Der.Reader

namespace Envelope

/-- The elements of an envelope with a public key, in order. -/
def elements (algorithm secret key : Bytes) : List Bytes :=
  [natural 1, encode .sequence algorithm, octetString secret, encode (.simple 1) (0 :: key)]

variable {algorithm secret key : Bytes} (halgorithm : algorithm.length ≤ 100)
  (hsecret : secret.length ≤ 100) (hkey : key.length ≤ 100)

include halgorithm hsecret hkey

theorem length_elements_le : (elements algorithm secret key).flatten.length ≤ 400 := by
  have hversion : (natural 1).length ≤ 3 := by decide
  have halgorithm : (encode .sequence algorithm).length ≤ 104 :=
    length_encode_le (by decide) halgorithm
  have hsecret : (octetString secret).length ≤ 104 := length_encode_le (by decide) hsecret
  have hkey : (encode (.simple 1) (0 :: key)).length ≤ 105 :=
    length_encode_le (by decide) (Nat.succ_le_succ hkey)
  simp only [elements, List.flatten_cons, List.flatten_nil, List.length_append, List.length_nil]
  omega

omit halgorithm hsecret in
/-- `readPublicKey` reads a public key under its own tag. -/
theorem readPublicKey_encode : readPublicKey (encode (.simple 1) (0 :: key)) = some (key, []) := by
  have hfits : (0 :: key).length ≤ keyLimit := by
    simp only [List.length_cons, keyLimit]
    omega
  have hread : Reader.bitString (.simple 1) (encode (.simple 1) (0 :: key)) = some (key, []) := by
    rw [Reader.bitString, ← List.append_nil (encode _ _), within_encode hfits]
    rfl
  rw [readPublicKey, bind_apply]
  exact hread

/-- `decode?` of the elements of an envelope with a public key succeeds exactly for the algorithm of
the envelope, if that may have a public key. -/
theorem decode?_sequence (expected : Bytes) (allowed : Bool) :
    decode? expected allowed (Der.sequence (elements algorithm secret key)) =
      if algorithm = expected ∧ allowed then some ⟨secret, some key⟩ else none := by
  have hcontents := Nat.le_trans (length_elements_le halgorithm hsecret hkey)
    (show 400 ≤ keyLimit by decide)
  have hlimits : algorithm.length ≤ keyLimit ∧ secret.length ≤ keyLimit := by
    simp only [keyLimit]
    omega
  have hwhole : decode? expected allowed (Der.sequence (elements algorithm secret key)) =
      all? (read expected allowed) (elements algorithm secret key).flatten := by
    rw [decode?, all?, Der.sequence, ← List.append_nil (encode _ _), within_encode hcontents]
    cases all? (read expected allowed) (elements algorithm secret key).flatten <;> rfl
  rw [hwhole, all?, read]
  simp only [elements, List.flatten_cons, List.flatten_nil, List.append_nil,
    bind_apply, natural_encode (by decide : (naturalContents 1).length ≤ keyLimit), Option.bind_some, element_encode hlimits.1]
  by_cases h : algorithm = expected
  · cases allowed with
    | false => simp [require, h]
    | true =>
      have hoptional : optional (.wrapper 0) (encode (.simple 1) (0 :: key)) =
        some (none, encode (.simple 1) (0 :: key)) := rfl
      simp only [h, require, octetString, beq_self_eq_true, Bool.and_self, Bool.or_true, if_true,
        Option.bind_some, element_encode hlimits.2, hoptional, bind_apply,
        readPublicKey_encode hkey, pure_apply, and_self]
  · simp [require, h]

end Envelope

/-- An envelope with a seed and a public key gives the public key, if it is that of the seed. The
public key has a name of its own here, since it is never to be computed. -/
theorem PublicKey.ofEd25519Envelope?_octetString {seed key : Bytes} (hseed : seed.length = 32)
    (hkey : Ed25519.publicKey seed = key) :
    ofEd25519Envelope? ⟨octetString seed, some key⟩ = some (.ed25519 key) := by
  have hread : all? (element .octetString) (octetString seed) = some seed := by
    rw [all?_eq_some_iff, octetString, ← List.append_nil (encode _ _)]
    refine element_encode ?_
    rw [hseed]
    decide
  rw [ofEd25519Envelope?]
  simp only [hread, hkey, hseed, Option.bind_eq_bind, Option.bind_some, Option.all_some,
    beq_self_eq_true, and_self, if_true]

namespace ApiKey

theorem privateKey_der (key : ApiKey) :
    key.privateKey.der = Der.sequence (Envelope.elements PublicKey.ed25519Algorithm
      (octetString key.seed) (Ed25519.publicKey key.seed)) := rfl

theorem length_octetString_seed (key : ApiKey) : (octetString key.seed).length ≤ 36 :=
  length_encode_le (by decide) (Nat.le_of_eq key.length_seed)

/-- `decode?` of the private key of an API key returns its seed and its public key, for the
algorithm Ed25519 and for no other. -/
theorem decode?_privateKey (key : ApiKey) (expected : Bytes) (allowed : Bool) :
    Envelope.decode? expected allowed key.privateKey.der =
      if PublicKey.ed25519Algorithm = expected ∧ allowed then
        some ⟨octetString key.seed, some (Ed25519.publicKey key.seed)⟩
      else none := by
  have hseed := key.length_octetString_seed
  have hkey := Ed25519.length_publicKey key.seed
  rw [privateKey_der, Envelope.decode?_sequence (by decide) (by omega) (by omega)]

/-- The private key of an API key loads to the public key of its seed. The other algorithms refuse
an envelope with a public key. -/
theorem publicKey?_privateKey (key : ApiKey) : key.privateKey.publicKey? = some key.publicKey := by
  have hkind : key.privateKey.kind = .pkcs8 := rfl
  have hrsa : key.privateKey.rsaEncoding? = none := by
    rw [PrivateKey.rsaEncoding?, hkind]
    simp only [decode?_privateKey, Bool.false_eq_true, and_false, if_false, Option.map_none]
  have hcurve : ∀ curve, key.privateKey.curveEncoding? curve = none := by
    intro curve
    rw [PrivateKey.curveEncoding?, hkind]
    simp only [decode?_privateKey, Bool.false_eq_true, and_false, if_false, Option.map_none]
  have hed25519 : key.privateKey.ed25519Envelope? =
      some ⟨octetString key.seed, some (Ed25519.publicKey key.seed)⟩ := by
    rw [PrivateKey.ed25519Envelope?, hkind]
    simp only [decode?_privateKey, and_self, if_true]
  have hopen : PublicKey.ofEd25519Envelope?
      ⟨octetString key.seed, some (Ed25519.publicKey key.seed)⟩ =
        some (.ed25519 (Ed25519.publicKey key.seed)) :=
    PublicKey.ofEd25519Envelope?_octetString key.length_seed rfl
  have hnone : ∀ found : Option PublicKey, (none <|> found) = found := fun _ => rfl
  simp only [PrivateKey.publicKey?, hrsa, hcurve, hed25519, Option.bind_eq_bind, Option.bind_none,
    Option.bind_some, hopen, hnone]
  rfl

end ApiKey

end ClientIdentity
