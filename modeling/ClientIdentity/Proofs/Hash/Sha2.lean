import ClientIdentity.Hash.Sha256
import ClientIdentity.Proofs.Bytes.Byte

namespace ClientIdentity.Sha256

/-- A SHA-256 digest has 32 bytes. -/
theorem length_digest (message : Bytes) : (digest message).length = 32 := by
  simp only [digest, Sha2.digest, Sha2.State.toWords, List.flatMap_cons, List.flatMap_nil,
    List.length_append, Bytes.length_ofNat, List.length_nil]
  rfl

end ClientIdentity.Sha256
