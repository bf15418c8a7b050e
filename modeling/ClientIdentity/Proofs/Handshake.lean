import ClientIdentity.Proofs.Handshake.Verifier
import ClientIdentity.Proofs.Key.Rsa

namespace ClientIdentity.Handshake

section Possession

variable {library : TlsLibrary} {Genuine : Bytes → Bytes → Signed → Prop}
  {Vouches : Certificate → Presented → Prop} {config : ClientConfig} {connection : Connection}

section Client

variable (library config connection) in
/-- The answers of a client to the messages that it has received: the last message alone if no
certificates are requested, none of its certificates if its key has no scheme of the offer, and
otherwise its certificates and a signature over all messages so far, under the first of its schemes
that is offered. -/
inductive Answers (said : List Message) : Option (List Nat) → List Message → Prop where
  | unasked : Answers said none [.finished]
  | unable {offer : List Nat}
      (hschemes : ∀ scheme ∈ config.pair.signingKey.schemes, scheme ∉ offer) :
      Answers said (some offer) [.certificates [] [], .finished]
  | signed {offer before after : List Nat} {scheme : Nat} {signature : Bytes}
      (hschemes : config.pair.signingKey.schemes = before ++ scheme :: after)
      (hbefore : ∀ other ∈ before, other ∉ offer) (hscheme : scheme ∈ offer)
      (hsign : library.sign config.pair.key scheme (signedContent .client
        (connection.digest (said ++ [.certificates config.pair.chain []]))) = .ok signature) :
      Answers said (some offer)
        [.certificates config.pair.chain [], .signature ⟨scheme, signature⟩, .finished]

variable (library config connection) in
/-- The steps of a client. -/
inductive Step : State → Message → State → Prop where
  | request (said : List Message) (offer : List Nat) :
      Step ⟨said, .waiting none⟩ (.request offer) ⟨said ++ [.request offer], .waiting (some offer)⟩
  | certificates (said : List Message) (request : Option (List Nat)) (chain : List Bytes)
      (status : Bytes) :
      Step ⟨said, .waiting request⟩ (.certificates chain status)
        ⟨said ++ [.certificates chain status], .shown request chain status⟩
  | signature {said : List Message} {request : Option (List Nat)} {chain : List Bytes}
      {status : Bytes} {signed : Signed}
      (h : checkServer library config connection said chain status signed = .ok ()) :
      Step ⟨said, .shown request chain status⟩ (.signature signed)
        ⟨said ++ [.signature signed], .verified request⟩
  | finished {said : List Message} {request : Option (List Nat)} {messages : List Message}
      (h : Answers library config connection (said ++ [.finished]) request messages) :
      Step ⟨said, .verified request⟩ .finished ⟨said ++ [.finished], .done messages⟩

variable (library config connection) in
/-- The messages that a client has received in a phase: what the phase holds stands in them, and
`checkServer` has accepted the signature from `verified` on. -/
inductive Justified : State → Prop where
  | waiting (request : Option (List Nat)) :
      Justified ⟨(request.map Message.request).toList, .waiting request⟩
  | shown (request : Option (List Nat)) (chain : List Bytes) (status : Bytes) :
      Justified ⟨shownBy request chain status, .shown request chain status⟩
  | verified {request : Option (List Nat)} {chain : List Bytes} {status : Bytes} {signed : Signed}
      (h : checkServer library config connection (shownBy request chain status) chain status
        signed = .ok ()) :
      Justified ⟨shownBy request chain status ++ [.signature signed], .verified request⟩
  | done {request : Option (List Nat)} {chain : List Bytes} {status : Bytes} {signed : Signed}
      {messages : List Message}
      (h : checkServer library config connection (shownBy request chain status) chain status
        signed = .ok ()) :
      Justified ⟨shownBy request chain status ++ [.signature signed] ++ [.finished],
        .done messages⟩

variable {state state' : State} {message : Message} {messages : List Message}

/-- A step preserves `Justified`. -/
theorem Justified.step (hstate : Justified library config connection state)
    (h : Step library config connection state message state') :
    Justified library config connection state' := by
  cases h with
  | request said offer =>
    cases hstate
    exact .waiting (some offer)
  | certificates said request chain status =>
    cases hstate
    exact .shown request chain status
  | signature hcheck =>
    cases hstate
    exact .verified hcheck
  | finished hanswer =>
    cases hstate with
    | verified hcheck => exact .done hcheck

end Client

section Run

end Run

end Possession

namespace Sample

/-- What the sample library reports. -/
inductive LibraryFault where
  | badCertificate
  | badSignature
  | unknownIssuer
  | messageTooLarge
  | unsupportedScheme
  | cannotSign
  deriving DecidableEq, Repr

/-- Whether the exponents of an RSA key undo one another for both factors. Keys on curves have none. -/
def canSign (key : PrivateKey) : Bool :=
  match key.rsaEncoding? >>= RsaNumbers.decode? with
  | some numbers => numbers.e * numbers.dp % (numbers.p - 1) == 1 &&
      numbers.e * numbers.dq % (numbers.q - 1) == 1
  | none => true

/-- The length of a message of certificates: five bytes for each of them and four for all stand beside
them. Others are short. -/
def messageLength : Message → Nat
  | .certificates chain _ => 4 + (chain.map (·.length + 5)).sum
  | _ => 0

/-- Refuses messages that are longer than 65535 bytes. -/
def deliver (messages : List Message) : Except LibraryFault Unit :=
  if messages.all (messageLength · ≤ 65535) then .ok () else .error .messageTooLarge

/-- A signature in the sample library is the public key of the signer in front of what is signed. -/
def Genuine (info content : Bytes) (signed : Signed) : Prop :=
  signed.signature = info ++ content

instance (info content : Bytes) (signed : Signed) : Decidable (Genuine info content signed) :=
  inferInstanceAs (Decidable (_ = _))

def verifySignature (content leaf : Bytes) (signed : Signed) (schemes : List Nat) :
    Except LibraryFault Unit :=
  match Certificate.parse leaf with
  | .error _ => .error .badCertificate
  | .ok certificate =>
    if signed.scheme ∉ schemes then .error .unsupportedScheme
    else if Genuine certificate.subjectInfo content signed then .ok ()
    else .error .badSignature

def verifyPath (anchors : List Certificate) (presented : Presented) : Except LibraryFault Unit :=
  match Certificate.parse presented.leaf with
  | .error _ => .error .badCertificate
  | .ok certificate =>
    if anchors.any (certificate.issuer = ·.subject) then .ok () else .error .unknownIssuer

/-- The schemes under which the client verifies signatures. -/
def supported : List Nat := [0x0503, 0x0403, 0x0807, 0x0806, 0x0805, 0x0804]

/-- A library with ideal signatures. -/
def library : TlsLibrary where
  Fault := LibraryFault
  Algorithms := List Nat
  algorithms := supported
  supportedSchemes schemes := schemes
  verifySignature12 := verifySignature
  verifySignature13 := verifySignature
  verifyPath := verifyPath
  deliver := deliver
  sign key _ content :=
    match key.publicKey? with
    | some publicKey =>
      if canSign key then .ok (publicKey.subjectInfoContents ++ content) else .error .cannotSign
    | none => .error .cannotSign

/-- A server whose signing succeeds as `usable` says, with the first of its schemes that is offered. It
asks for the certificates of the client, and takes all that are delivered. -/
def serverWith (usable : Bool) (schemes : List Nat) (info : Bytes) (chain : List Bytes) :
    Server library where
  chain
  status := []
  subjectInfo := info
  request := some supported
  sign offer content :=
    match schemes.find? offer.contains with
    | none => .error .unsupportedScheme
    | some scheme => if usable then .ok ⟨scheme, info ++ content⟩ else .error .cannotSign
  admits := deliver

/-- A certificate that says nothing but what its public key is. -/
def layoutOf (info : Bytes) : Certificate.Layout :=
  { KeyPair.Sample.layout with subjectInfo := info }

/-- The server of a private key, with the certificate of its public half and others. -/
def serverOf (key : PrivateKey) (publicKey : PublicKey) (others : List Bytes) : Server library :=
  serverWith (canSign key) publicKey.schemes publicKey.subjectInfoContents
    ((layoutOf publicKey.subjectInfoContents).encode :: others)

def server : Server library :=
  serverOf KeyPair.Sample.key KeyPair.Sample.publicKey []

/-- Another key on the same curve. -/
def otherKey : PublicKey := .ecdsa .p256 (Weierstrass.p256.publicPoint 2)

/-- Numbers that are loaded as those of an RSA key, since it is not checked whether the factors are prime.
The exponents do not undo one another. -/
def numbers : RsaNumbers where
  n := (2 ^ 1023 + 1) * (2 ^ 1023 + 3)
  e := 65537
  d := 2 ^ 1500 + 1
  p := 2 ^ 1023 + 1
  q := 2 ^ 1023 + 3
  dp := 1
  dq := 1
  qInverse := 2 ^ 1022 + 1

variable {config : ClientConfig} {connection : Connection}

section Keys

variable {key : PrivateKey} {publicKey : PublicKey} {scheme : Nat} {content : Bytes}

end Keys

end Sample

end ClientIdentity.Handshake
