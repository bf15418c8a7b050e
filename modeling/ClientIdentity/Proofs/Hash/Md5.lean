import ClientIdentity.Hash.Md5
import ClientIdentity.Proofs.Bytes.Byte

namespace ClientIdentity.Md5

/-- An MD5 digest has 16 bytes. -/
theorem length_digest (message : Bytes) : (digest message).length = 16 := by
  simp only [digest, State.toBytes, List.flatMap_cons, List.flatMap_nil, List.length_append,
    List.length_reverse, Bytes.length_ofNat, List.length_nil]

end ClientIdentity.Md5
