import ClientIdentity.Cipher.Aes
import ClientIdentity.Cipher.BlockPadding
import ClientIdentity.Cipher.Cbc
import ClientIdentity.Cipher.Des
import ClientIdentity.Hash.Md5
import ClientIdentity.Pem.Block
import ClientIdentity.Text.Hex

namespace ClientIdentity.Pem.Encryption

/-- The ciphers, all of them chaining their blocks. -/
inductive Cipher where
  | des
  | tripleDes
  | aes128
  | aes192
  | aes256
  deriving DecidableEq, Repr

namespace Cipher

def all : List Cipher := [.des, .tripleDes, .aes128, .aes192, .aes256]

/-- The name in the header. -/
def name : Cipher → String
  | .des => "DES-CBC"
  | .tripleDes => "DES-EDE3-CBC"
  | .aes128 => "AES-128-CBC"
  | .aes192 => "AES-192-CBC"
  | .aes256 => "AES-256-CBC"

def ofName? (name : String) : Option Cipher :=
  all.find? fun cipher => cipher.name == name

/-- The number of bytes of the key derived for the cipher. -/
def keyLength : Cipher → Nat
  | .des => 8
  | .tripleDes => 24
  | .aes128 => 16
  | .aes192 => 24
  | .aes256 => 32

/-- The block cipher behind the name. -/
def algorithm : Cipher → BlockAlgorithm
  | .des => Des.algorithm
  | .tripleDes => Des.tripleAlgorithm
  | .aes128 => Aes.aes128
  | .aes192 => Aes.aes192
  | .aes256 => Aes.aes256

/-- The cipher under a key. -/
def withKey (cipher : Cipher) (key : Bytes) : BlockCipher :=
  cipher.algorithm.withKey key

/-- The number of bytes of a block, and of an initialization vector. -/
def blockSize : Cipher → Nat
  | .des => 8
  | .tripleDes => 8
  | .aes128 => 16
  | .aes192 => 16
  | .aes256 => 16

end Cipher

/-- Why a block is not decrypted. -/
inductive Fault where
  /-- The padding is wrong, which is how a wrong password shows. -/
  | incorrectPassword
  | missingHeader
  | malformedHeader (value : String)
  | unsupportedCipher (name : String)
  | invalidVector (expected actual : Nat)
  /-- The contents are empty or end inside a block. -/
  | invalidLength
  /-- The cipher takes no key or no vector of the length it is given. -/
  | invalidKeyLength
  deriving DecidableEq, Repr

def Fault.message : Fault → String
  | .incorrectPassword => "incorrect password"
  | .missingHeader => "missing DEK-Info header"
  | .malformedHeader value => s!"malformed DEK-Info header '{value}'"
  | .unsupportedCipher name => s!"unsupported cipher '{name}'"
  | .invalidVector expected actual =>
    s!"invalid IV: expected {expected} bytes, got {actual}"
  | .invalidLength => "encrypted data is not a multiple of the block size"
  | .invalidKeyLength => "invalid key or IV length"

/-- The contents whose padded form `input` is the chained encryption of. The algorithm refuses a key
or a vector that is not of its own size. -/
def decryptChained (algorithm : BlockAlgorithm) (key vector input : Bytes) : Except Fault Bytes :=
  if key.length = algorithm.keySize ∧ vector.length = algorithm.blockSize then
    match BlockPadding.unpad? algorithm.blockSize
        (Cbc.decrypt (algorithm.withKey key) vector input) with
    | none => .error .incorrectPassword
    | some contents => .ok contents
  else
    .error .invalidKeyLength

/-- The digests that keys are made of: each one is of the digest before it, the password and the
salt. -/
def digests (password salt : Bytes) : (count : Nat) → (previous : Bytes) → List Bytes
  | 0, _ => []
  | count + 1, previous =>
    let digest := Md5.digest (previous ++ password ++ salt)
    digest :: digests password salt count digest

/-- The first `length` bytes of the digests. -/
def deriveKey (password salt : Bytes) (length : Nat) : Bytes :=
  (digests password salt ((length + 15) / 16) []).flatten.take length

/-- What the header says. -/
structure Parameters where
  cipher : Cipher
  vector : Bytes
  deriving DecidableEq, Repr

namespace Parameters

/-- The number of bytes of the initialization vector that salt the password. -/
def saltLength : Nat := 8

/-- The parameters in the value of the header: the name of a cipher, a comma, and hexadecimal
digits. -/
def parse (value : String) : Except Fault Parameters :=
  match Split.atFirst? ',' value with
  | none => .error (.malformedHeader value)
  | some (name, digits) =>
    match Cipher.ofName? (Blank.trim name) with
    | none => .error (.unsupportedCipher (Blank.trim name))
    | some cipher =>
      match Hex.decode? (Blank.trim digits) with
      | none => .error (.malformedHeader value)
      | some vector =>
        if vector.length = cipher.blockSize then .ok ⟨cipher, vector⟩
        else .error (.invalidVector cipher.blockSize vector.length)

/-- The key that is derived from a password for these parameters. -/
def key (parameters : Parameters) (password : Bytes) : Bytes :=
  deriveKey password (parameters.vector.take saltLength) parameters.cipher.keyLength

/-- Decrypts `input` with the key derived from a password. -/
def decrypt (parameters : Parameters) (password input : Bytes) : Except Fault Bytes :=
  decryptChained parameters.cipher.algorithm (parameters.key password) parameters.vector input

end Parameters

/-- The parameters of an encrypted block, whose contents must be of complete blocks. -/
def parametersOf (block : Block) : Except Fault Parameters :=
  match block.get? Block.encryptionHeader with
  | none => .error .missingHeader
  | some value =>
    match Parameters.parse value with
    | .error fault => .error fault
    | .ok parameters =>
      if block.contents = [] ∨ block.contents.length % parameters.cipher.blockSize ≠ 0 then
        .error .invalidLength
      else
        .ok parameters

/-- The contents of an encrypted block. -/
def decrypt (block : Block) (password : Bytes) : Except Fault Bytes :=
  match parametersOf block with
  | .error fault => .error fault
  | .ok parameters => parameters.decrypt password block.contents

end ClientIdentity.Pem.Encryption
