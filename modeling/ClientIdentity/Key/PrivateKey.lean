import ClientIdentity.Bytes

namespace ClientIdentity

/-- How a private key is encoded. -/
inductive KeyKind where
  /-- RSA in its own format. -/
  | pkcs1
  /-- An elliptic curve in its own format. -/
  | sec1
  /-- Any algorithm, which the encoding names. -/
  | pkcs8
  deriving DecidableEq, Repr

namespace KeyKind

/-- The tag of a block that holds a key of this kind. -/
def tag : KeyKind → String
  | .pkcs1 => "RSA PRIVATE KEY"
  | .sec1 => "EC PRIVATE KEY"
  | .pkcs8 => "PRIVATE KEY"

/-- Every kind. -/
def all : List KeyKind := [.pkcs1, .sec1, .pkcs8]

end KeyKind

/-- A private key that has not been looked into: the kind of its encoding and the encoding. -/
structure PrivateKey where
  kind : KeyKind
  der : Bytes
  deriving DecidableEq, Repr

end ClientIdentity
