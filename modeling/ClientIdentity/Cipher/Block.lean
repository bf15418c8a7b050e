import ClientIdentity.Bytes

namespace ClientIdentity

/-- A block cipher under a fixed key. -/
structure BlockCipher where
  /-- The bytes of a block. -/
  blockSize : Nat
  encrypt : Bytes → Bytes
  decrypt : Bytes → Bytes

/-- A block cipher before it is keyed. -/
structure BlockAlgorithm where
  /-- The bytes of a key. -/
  keySize : Nat
  /-- The bytes of a block. -/
  blockSize : Nat
  withKey : (key : Bytes) → BlockCipher

/-- Decryption undoes encryption and encryption undoes decryption on every block, and both keep the
size of a block. -/
structure BlockCipher.Invertible (c : BlockCipher) : Prop where
  length_encrypt : ∀ block, block.length = c.blockSize → (c.encrypt block).length = c.blockSize
  length_decrypt : ∀ block, block.length = c.blockSize → (c.decrypt block).length = c.blockSize
  decrypt_encrypt : ∀ block, block.length = c.blockSize → c.decrypt (c.encrypt block) = block
  encrypt_decrypt : ∀ block, block.length = c.blockSize → c.encrypt (c.decrypt block) = block

end ClientIdentity
