import ClientIdentity.Curve.Ed25519
import ClientIdentity.Proofs.Bytes.Byte

namespace ClientIdentity.Ed25519

theorem length_ofNat (n : Nat) : (ofNat n).length = 32 := by
  rw [ofNat, List.length_reverse, Bytes.length_ofNat]

theorem Point.length_toBytes (point : Point) : point.toBytes.length = 32 := by
  rw [Point.toBytes, length_ofNat]

theorem length_publicKey (seed : Bytes) : (publicKey seed).length = 32 := by
  rw [publicKey, Point.length_toBytes]

theorem length_sign (seed message : Bytes) : (sign seed message).length = 64 := by
  rw [sign, List.length_append, Point.length_toBytes, length_ofNat]

end ClientIdentity.Ed25519
