import ClientIdentity.Cipher.Block

namespace ClientIdentity.Cbc

/-- Encrypts consecutive blocks. -/
def encryptBlocks (c : BlockCipher) : (previous : Bytes) → List Bytes → List Bytes
  | _, [] => []
  | previous, block :: rest =>
    let sealed := c.encrypt (Bytes.xor block previous)
    sealed :: encryptBlocks c sealed rest

/-- Decrypts consecutive blocks. -/
def decryptBlocks (c : BlockCipher) : (previous : Bytes) → List Bytes → List Bytes
  | _, [] => []
  | previous, block :: rest =>
    Bytes.xor (c.decrypt block) previous :: decryptBlocks c block rest

/-- Encrypts an input of complete blocks. -/
def encrypt (c : BlockCipher) (iv input : Bytes) : Bytes :=
  (encryptBlocks c iv (Bytes.chunks c.blockSize input)).flatten

/-- Decrypts an input of complete blocks. -/
def decrypt (c : BlockCipher) (iv input : Bytes) : Bytes :=
  (decryptBlocks c iv (Bytes.chunks c.blockSize input)).flatten

end ClientIdentity.Cbc
