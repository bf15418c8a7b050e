import ClientIdentity.Hash.Sha256
import ClientIdentity.Text.Hex

namespace ClientIdentity

/-- The SHA-256 digest of an encoded public key. -/
structure Identity where
  digest : Bytes
  deriving DecidableEq, Repr

namespace Identity

/-- The identity of an encoded public key. -/
def ofSubjectInfo (info : Bytes) : Identity :=
  ⟨Sha256.digest info⟩

/-- The identity in hexadecimal digits. -/
def text (identity : Identity) : String :=
  Hex.encode identity.digest

/-- How an identity is shown inside another value. -/
def describe (identity : Identity) : String :=
  "Identity(" ++ identity.text ++ ")"

end Identity

end ClientIdentity
