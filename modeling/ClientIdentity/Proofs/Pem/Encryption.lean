import ClientIdentity.Pem.Encryption
import ClientIdentity.Proofs.Cipher.Aes
import ClientIdentity.Proofs.Cipher.BlockPadding
import ClientIdentity.Proofs.Cipher.Cbc
import ClientIdentity.Proofs.Cipher.Des
import ClientIdentity.Proofs.Hash.Md5
import ClientIdentity.Proofs.Text.Blank
import ClientIdentity.Proofs.Text.Hex
import ClientIdentity.Proofs.Text.Split

namespace ClientIdentity.Pem.Encryption

namespace Cipher

/-- Every cipher is invertible on blocks, under every key of any length. -/
theorem withKey_invertible (cipher : Cipher) (key : Bytes) : (cipher.withKey key).Invertible := by
  cases cipher with
  | des => exact Des.cipher_invertible key
  | tripleDes => exact Des.tripleCipher_invertible key
  | aes128 => exact Aes.cipher_invertible key
  | aes192 => exact Aes.cipher_invertible key
  | aes256 => exact Aes.cipher_invertible key

theorem blockSize_withKey (cipher : Cipher) (key : Bytes) :
    (cipher.withKey key).blockSize = cipher.blockSize := by
  cases cipher <;> rfl

theorem keySize_algorithm (cipher : Cipher) : cipher.algorithm.keySize = cipher.keyLength := by
  cases cipher <;> rfl

theorem blockSize_algorithm (cipher : Cipher) : cipher.algorithm.blockSize = cipher.blockSize := by
  cases cipher <;> rfl

theorem blockSize_pos (cipher : Cipher) : 0 < cipher.blockSize := by
  cases cipher <;> decide

theorem blockSize_lt (cipher : Cipher) : cipher.blockSize < 256 := by
  cases cipher <;> decide

theorem ofName?_name (cipher : Cipher) : ofName? cipher.name = some cipher := by
  cases cipher <;> decide

theorem not_blank_of_mem_name (cipher : Cipher) :
    ∀ c ∈ cipher.name.toList, Blank.isBlank c = false := by
  have hall : (cipher.name.toList.all fun c => !Blank.isBlank c) = true := by
    cases cipher <;> decide
  intro c hc
  have hc := List.all_eq_true.mp hall c hc
  rwa [Bool.not_eq_true'] at hc

end Cipher

section Key

theorem length_flatten_digests (password salt : Bytes) (count : Nat) (previous : Bytes) :
    (digests password salt count previous).flatten.length = 16 * count := by
  induction count generalizing previous with
  | zero => rfl
  | succ count ih =>
    rw [digests, List.flatten_cons, List.length_append, ih, Md5.length_digest]
    omega

/-- `deriveKey` returns exactly `length` bytes. -/
theorem length_deriveKey (password salt : Bytes) (length : Nat) :
    (deriveKey password salt length).length = length := by
  rw [deriveKey, List.length_take, length_flatten_digests]
  omega

end Key

/-- The contents padded to complete blocks and chained from the vector, under the key derived from the
password and the first eight bytes of the vector. -/
def Parameters.encrypt (parameters : Parameters) (password contents : Bytes) : Bytes :=
  Cbc.encrypt
    (parameters.cipher.withKey
      (deriveKey password (parameters.vector.take 8) parameters.cipher.keyLength))
    parameters.vector (BlockPadding.pad parameters.cipher.blockSize contents)

namespace Parameters

variable {parameters : Parameters} (hvector : parameters.vector.length = parameters.cipher.blockSize)

/-- The length of padded contents is a multiple of the block size. -/
theorem length_pad_mod (parameters : Parameters) (key contents : Bytes) :
    (BlockPadding.pad parameters.cipher.blockSize contents).length %
      (parameters.cipher.withKey key).blockSize = 0 := by
  rw [Cipher.blockSize_withKey]
  exact BlockPadding.length_pad_mod parameters.cipher.blockSize_pos contents

/-- The derived key has the key size of the cipher. -/
theorem length_key (parameters : Parameters) (password : Bytes) :
    (parameters.key password).length = parameters.cipher.algorithm.keySize := by
  rw [key, length_deriveKey, Cipher.keySize_algorithm]

include hvector

/-- `Parameters.decrypt` with a vector of one block removes the padding from the CBC decryption. -/
theorem decrypt_eq (password input : Bytes) :
    parameters.decrypt password input =
      match BlockPadding.unpad? parameters.cipher.blockSize
          (Cbc.decrypt (parameters.cipher.withKey (parameters.key password))
            parameters.vector input) with
      | none => .error .incorrectPassword
      | some contents => .ok contents := by
  have hsizes : (parameters.key password).length = parameters.cipher.algorithm.keySize ∧
      parameters.vector.length = parameters.cipher.algorithm.blockSize := by
    rw [Cipher.blockSize_algorithm]
    exact ⟨parameters.length_key password, hvector⟩
  rw [decrypt, decryptChained, if_pos hsizes, Cipher.blockSize_algorithm]
  rfl

/-- `Parameters.decrypt` returns contents or reports an incorrect password. -/
theorem decrypt_eq_ok_or (password input : Bytes) :
    (∃ contents, parameters.decrypt password input = .ok contents) ∨
      parameters.decrypt password input = .error .incorrectPassword := by
  rw [decrypt_eq hvector]
  split
  · exact .inr rfl
  · exact .inl ⟨_, rfl⟩

/-- `Parameters.decrypt` of complete blocks returns exactly the contents whose encryption they
are. -/
theorem decrypt_eq_ok_iff {password input contents : Bytes}
    (hinput : input.length % parameters.cipher.blockSize = 0) :
    parameters.decrypt password input = .ok contents ↔
      input = parameters.encrypt password contents := by
  have hsize := parameters.cipher.blockSize_withKey (parameters.key password)
  have hpos := parameters.cipher.blockSize_pos
  have hc := parameters.cipher.withKey_invertible (parameters.key password)
  have hpad := parameters.length_pad_mod (parameters.key password) contents
  have hopen : parameters.decrypt password input = .ok contents ↔
      BlockPadding.unpad? parameters.cipher.blockSize
        (Cbc.decrypt (parameters.cipher.withKey (parameters.key password))
          parameters.vector input) = some contents := by
    rw [decrypt_eq hvector]
    split <;> simp_all
  rw [← hsize] at hpos hvector hinput
  have hopened : (Cbc.decrypt (parameters.cipher.withKey (parameters.key password))
      parameters.vector input).length % parameters.cipher.blockSize = 0 := by
    rw [Cbc.length_decrypt hc hpos hvector hinput, ← hsize, hinput]
  rw [hopen, BlockPadding.unpad?_eq_some_iff parameters.cipher.blockSize_pos
    parameters.cipher.blockSize_lt hopened]
  constructor
  · intro h
    rw [encrypt, ← h]
    exact (Cbc.encrypt_decrypt hc hpos hvector hinput).symm
  · rintro rfl
    exact Cbc.decrypt_encrypt hc hpos hvector hpad

/-- The encryption of contents is as long as the padded contents. -/
theorem length_encrypt (password contents : Bytes) :
    (parameters.encrypt password contents).length =
      (BlockPadding.pad parameters.cipher.blockSize contents).length := by
  have hsize := parameters.cipher.blockSize_withKey (parameters.key password)
  have hpos := parameters.cipher.blockSize_pos
  have hpad := parameters.length_pad_mod (parameters.key password) contents
  rw [← hsize] at hpos hvector
  exact Cbc.length_encrypt (parameters.cipher.withKey_invertible _) hpos hvector hpad

theorem length_encrypt_mod (password contents : Bytes) :
    (parameters.encrypt password contents).length % parameters.cipher.blockSize = 0 := by
  rw [length_encrypt hvector]
  exact BlockPadding.length_pad_mod parameters.cipher.blockSize_pos contents

theorem encrypt_ne_nil (password contents : Bytes) : parameters.encrypt password contents ≠ [] := by
  apply List.ne_nil_of_length_pos
  rw [length_encrypt hvector]
  exact List.length_pos_iff.mpr (BlockPadding.pad_ne_nil parameters.cipher.blockSize_pos contents)

end Parameters

/-- What the header says about a cipher and an initialization vector in digits of either case. -/
def headerValue (cipher : Cipher) (digits : String) : String :=
  cipher.name ++ "," ++ digits

/-- The header lines of an encrypted block. -/
def headerLines (cipher : Cipher) (digits : String) : List String :=
  ["Proc-Type: 4,ENCRYPTED", "DEK-Info: " ++ headerValue cipher digits]

section Header

variable {cipher : Cipher} {digits : String} {vector : Bytes}

theorem not_blank_of_digit {c : Char} (h : (Hex.value? c).isSome) : Blank.isBlank c = false := by
  have hdigit := Hex.digit_of_value? h
  simp only [Blank.isBlank, Bool.or_eq_false_iff, Bool.and_eq_false_iff, decide_eq_false_iff_not,
    beq_eq_false_iff_ne]
  omega

theorem not_blank_of_mem_headerValue (hdigits : Hex.decode? digits = some vector) :
    ∀ c ∈ (headerValue cipher digits).toList, Blank.isBlank c = false := by
  intro c hc
  simp only [headerValue, String.toList_append, List.mem_append] at hc
  rcases hc with (hname | hcomma) | hdigit
  · exact cipher.not_blank_of_mem_name c hname
  · obtain rfl : c = ',' := by simpa using hcomma
    decide
  · exact not_blank_of_digit (Hex.digits_of_decode? hdigits c hdigit)

/-- `header?` of a written `DEK-Info` line returns the name of the header and the value. -/
theorem header?_headerValue (hdigits : Hex.decode? digits = some vector) :
    Block.header? ("DEK-Info: " ++ headerValue cipher digits) =
      some (Block.encryptionHeader, headerValue cipher digits) := by
  have hline : "DEK-Info: " ++ headerValue cipher digits =
      "DEK-Info" ++ String.singleton ':' ++ (" " ++ headerValue cipher digits) := by
    rw [← String.append_assoc]
    rfl
  have hcut : Split.atFirst? ':' ("DEK-Info: " ++ headerValue cipher digits) =
      some ("DEK-Info", " " ++ headerValue cipher digits) := by
    rw [hline]
    exact Split.atFirst?_append _ (by decide)
  have hvalue : Blank.trim (" " ++ headerValue cipher digits) = headerValue cipher digits := by
    rw [Blank.trim_append Blank.isBlank_of_mem_space,
      Blank.trim_of_forall (not_blank_of_mem_headerValue hdigits)]
  simp only [Block.header?, hcut, Option.map_some, hvalue]
  rfl

theorem get?_headerLines (hdigits : Hex.decode? digits = some vector) (tag : String)
    (contents : Bytes) :
    (⟨tag, headerLines cipher digits, contents⟩ : Block).get? Block.encryptionHeader =
      some (headerValue cipher digits) := by
  have hfirst : Block.header? "Proc-Type: 4,ENCRYPTED" = some ("Proc-Type", "4,ENCRYPTED") := by
    decide
  simp [Block.get?, Block.headers, headerLines, hfirst, header?_headerValue hdigits]

end Header

end ClientIdentity.Pem.Encryption
