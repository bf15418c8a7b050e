import ClientIdentity.Bytes

namespace ClientIdentity.Hash

/-- The number of zeros after the marking byte of a message of `length` bytes, when the length
field takes `field` bytes. -/
def zeroCount (block field length : Nat) : Nat :=
  (2 * block - (length + 1 + field) % block) % block

/-- The message filled up to complete blocks; `lengthField` holds its length in bits. -/
def pad (block : Nat) (lengthField message : Bytes) : Bytes :=
  message ++ 0x80 :: (List.replicate (zeroCount block lengthField.length message.length) 0 ++
    lengthField)

end ClientIdentity.Hash
