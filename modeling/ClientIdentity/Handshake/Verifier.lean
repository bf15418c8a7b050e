import ClientIdentity.Client

namespace ClientIdentity

/-- A signature of a handshake, with the number of the scheme under which it was made. -/
structure Signed where
  scheme : Nat
  signature : Bytes
  deriving DecidableEq, Repr

/-- A message of a full TLS 1.3 handshake, behind the ones in which both sides agree on keys. -/
inductive Message where
  /-- A request for certificates, with the schemes under which the other side may sign. -/
  | request (offer : List Nat)
  /-- The certificates of a side, the leaf first, and the revocation status that comes with it. -/
  | certificates (chain : List Bytes) (status : Bytes)
  | signature (signed : Signed)
  | finished
  deriving DecidableEq, Repr

/-- The arguments of a certificate check: the certificates of the server with the revocation status, the
name by which it is addressed, and the time. -/
structure Presented where
  leaf : Bytes
  intermediates : List Bytes
  name : String
  status : Bytes
  now : Nat
  deriving DecidableEq, Repr

/-- The operations that a client leaves to its TLS library. `Algorithms` are sets of signature
verification algorithms, and `algorithms` is the set of the default provider. -/
structure TlsLibrary where
  Fault : Type
  Algorithms : Type
  algorithms : Algorithms
  /-- The schemes that a set of algorithms verifies. -/
  supportedSchemes : Algorithms → List Nat
  /-- Verifies the signature of a message against a leaf, by the rules of TLS 1.2. -/
  verifySignature12 : Bytes → Bytes → Signed → Algorithms → Except Fault Unit
  /-- Verifies the signature of a message against a leaf, by the rules of TLS 1.3. -/
  verifySignature13 : Bytes → Bytes → Signed → Algorithms → Except Fault Unit
  /-- Searches a path from a leaf to one of the trust anchors. -/
  verifyPath : List Certificate → Presented → Except Fault Unit
  /-- Brings the messages of the server to the client. -/
  deliver : List Message → Except Fault Unit
  /-- Signs a message under a scheme. -/
  sign : PrivateKey → Nat → Bytes → Except Fault Bytes

/-- The operations by which a client verifies a server. -/
structure ServerVerifier (library : TlsLibrary) where
  verifyCertificate : Presented → Except library.Fault Unit
  verifySignature12 : Bytes → Bytes → Signed → Except library.Fault Unit
  verifySignature13 : Bytes → Bytes → Signed → Except library.Fault Unit
  /-- The schemes that the client offers to the server. -/
  schemes : List Nat

namespace ServerVerifier

/-- The verifier that takes every certificate. Signatures are verified against the leaf with the
algorithms of the default provider, and the schemes of these algorithms are offered. -/
def skipping (library : TlsLibrary) : ServerVerifier library where
  verifyCertificate _ := .ok ()
  verifySignature12 message leaf signed :=
    library.verifySignature12 message leaf signed library.algorithms
  verifySignature13 message leaf signed :=
    library.verifySignature13 message leaf signed library.algorithms
  schemes := library.supportedSchemes library.algorithms

/-- The verifier that demands a path to a trust anchor. -/
def rooted (library : TlsLibrary) (anchors : List Certificate) : ServerVerifier library where
  verifyCertificate := library.verifyPath anchors
  verifySignature12 message leaf signed :=
    library.verifySignature12 message leaf signed library.algorithms
  verifySignature13 message leaf signed :=
    library.verifySignature13 message leaf signed library.algorithms
  schemes := library.supportedSchemes library.algorithms

end ServerVerifier

/-- The verifier of a client. -/
def Verification.verifier (library : TlsLibrary) : Verification → ServerVerifier library
  | .none => .skipping library
  | .roots anchors => .rooted library anchors

end ClientIdentity
