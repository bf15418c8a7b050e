import ClientIdentity.Proofs.Pem.Encryption
import ClientIdentity.Text.Utf8

namespace ClientIdentity.Pem.Encryption

variable {block : Block} {parameters : Parameters}

theorem Cipher.ofName?_eq_some_iff {name : String} {cipher : Cipher} :
    ofName? name = some cipher ↔ name = cipher.name := by
  constructor
  · intro h
    have hname := List.find?_some h
    exact (beq_iff_eq.mp hname).symm
  · rintro rfl
    exact ofName?_name cipher

/-- What a block must be for a password to decide alone what becomes of it: its header names a
cipher and a vector of the size of that cipher's blocks, and its contents are complete blocks. -/
structure WellFormed (block : Block) (parameters : Parameters) : Prop where
  header : ∃ name digits, block.get? Block.encryptionHeader = some (name ++ "," ++ digits) ∧
    ',' ∉ name.toList ∧ Blank.trim name = parameters.cipher.name ∧
    Hex.decode? (Blank.trim digits) = some parameters.vector
  vector : parameters.vector.length = parameters.cipher.blockSize
  nonempty : block.contents ≠ []
  complete : block.contents.length % parameters.cipher.blockSize = 0

/-- `Parameters.parse` succeeds exactly for the name of a cipher, a comma and the hexadecimal digits
of a vector of one block, with white space around the name and the digits. -/
theorem Parameters.parse_eq_ok_iff {value : String} :
    Parameters.parse value = .ok parameters ↔
      (∃ name digits, value = name ++ "," ++ digits ∧ ',' ∉ name.toList ∧
        Blank.trim name = parameters.cipher.name ∧
        Hex.decode? (Blank.trim digits) = some parameters.vector) ∧
      parameters.vector.length = parameters.cipher.blockSize := by
  constructor
  · intro h
    unfold Parameters.parse at h
    split at h
    · cases h
    · rename_i name digits hcut
      obtain ⟨hvalue, hname⟩ := Split.eq_of_atFirst? hcut
      split at h
      · cases h
      · rename_i cipher hcipher
        split at h
        · cases h
        · rename_i vector hvector
          split_ifs at h with hlength
          obtain rfl := Except.ok.inj h
          exact ⟨⟨name, digits, hvalue, hname, Cipher.ofName?_eq_some_iff.mp hcipher, hvector⟩,
            hlength⟩
  · rintro ⟨⟨name, digits, rfl, hcomma, hname, hvector⟩, hlength⟩
    have hcut : Split.atFirst? ',' (name ++ "," ++ digits) = some (name, digits) :=
      Split.atFirst?_append digits hcomma
    simp only [Parameters.parse, hcut, hname, Cipher.ofName?_name, hvector, hlength, if_true]

theorem parametersOf_eq_ok_iff :
    parametersOf block = .ok parameters ↔ WellFormed block parameters := by
  constructor
  · intro h
    unfold parametersOf at h
    split at h
    · cases h
    · rename_i value hvalue
      split at h
      · cases h
      · rename_i found hparse
        split_ifs at h with hcontents
        obtain rfl := Except.ok.inj h
        obtain ⟨hne, hcomplete⟩ := not_or.mp hcontents
        obtain ⟨⟨name, digits, rfl, hheader⟩, hvector⟩ := Parameters.parse_eq_ok_iff.mp hparse
        exact ⟨⟨name, digits, hvalue, hheader⟩, hvector, hne, not_not.mp hcomplete⟩
  · rintro ⟨⟨name, digits, hvalue, hheader⟩, hvector, hne, hcomplete⟩
    have hparse : Parameters.parse (name ++ "," ++ digits) = .ok parameters :=
      Parameters.parse_eq_ok_iff.mpr ⟨⟨name, digits, rfl, hheader⟩, hvector⟩
    simp only [parametersOf, hvalue, hparse]
    rw [if_neg (not_or.mpr ⟨hne, not_not.mpr hcomplete⟩)]

namespace WellFormed

/-- A well-formed block stays well formed with encrypted contents in place of its own. -/
theorem with_encrypted (h : WellFormed block parameters) (password contents : Bytes) :
    WellFormed { block with contents := parameters.encrypt password contents } parameters where
  header := h.header
  vector := h.vector
  nonempty := Parameters.encrypt_ne_nil h.vector password contents
  complete := Parameters.length_encrypt_mod h.vector password contents

theorem decrypt_eq (h : WellFormed block parameters) (password : Bytes) :
    decrypt block password = parameters.decrypt password block.contents := by
  simp only [decrypt, parametersOf_eq_ok_iff.mpr h]

theorem decrypt_eq_ok_iff (h : WellFormed block parameters) (password contents : Bytes) :
    decrypt block password = .ok contents ↔
      block.contents = parameters.encrypt password contents := by
  rw [h.decrypt_eq password, Parameters.decrypt_eq_ok_iff h.vector h.complete]

theorem decrypt_eq_incorrectPassword_iff (h : WellFormed block parameters) (password : Bytes) :
    decrypt block password = .error .incorrectPassword ↔
      ∀ contents, block.contents ≠ parameters.encrypt password contents := by
  simp only [← h.decrypt_eq_ok_iff, ne_eq]
  rw [h.decrypt_eq password]
  obtain ⟨contents, hopened⟩ | hrefused := Parameters.decrypt_eq_ok_or h.vector password block.contents
  · simp [hopened]
  · simp [hrefused]

end WellFormed

/-- Encrypted contents are at least one byte and at most one block longer than the contents. -/
theorem Parameters.length_encrypt_bounds
    (hvector : parameters.vector.length = parameters.cipher.blockSize)
    (password contents : Bytes) :
    contents.length < (parameters.encrypt password contents).length ∧
      (parameters.encrypt password contents).length ≤
        contents.length + parameters.cipher.blockSize := by
  have hpos := BlockPadding.count_pos parameters.cipher.blockSize_pos contents.length
  have hle := BlockPadding.count_le parameters.cipher.blockSize contents.length
  rw [Parameters.length_encrypt hvector, BlockPadding.length_pad]
  omega

section Header

variable {cipher : Cipher} {digits : String} {vector : Bytes}

theorem wellFormed_headerLines (hdigits : Hex.decode? digits = some vector)
    (hvector : vector.length = cipher.blockSize) (tag : String) (password contents : Bytes) :
    WellFormed ⟨tag, headerLines cipher digits,
      (⟨cipher, vector⟩ : Parameters).encrypt password contents⟩ ⟨cipher, vector⟩ where
  header := by
    have htrim : Blank.trim digits = digits :=
      Blank.trim_of_forall fun c hc => not_blank_of_digit (Hex.digits_of_decode? hdigits c hc)
    have hname : Blank.trim cipher.name = cipher.name :=
      Blank.trim_of_forall cipher.not_blank_of_mem_name
    refine ⟨cipher.name, digits, get?_headerLines hdigits _ _, ?_, hname, ?_⟩
    · cases cipher <;> decide
    · rw [htrim, hdigits]
  vector := hvector
  nonempty := Parameters.encrypt_ne_nil hvector password contents
  complete := Parameters.length_encrypt_mod hvector password contents

/-- `decrypt` returns the contents that were encrypted under the same password. -/
theorem decrypt_encrypt (hdigits : Hex.decode? digits = some vector)
    (hvector : vector.length = cipher.blockSize) (tag : String) (password contents : Bytes) :
    decrypt ⟨tag, headerLines cipher digits,
      (⟨cipher, vector⟩ : Parameters).encrypt password contents⟩ password = .ok contents :=
  ((wellFormed_headerLines hdigits hvector tag password contents).decrypt_eq_ok_iff _ _).mpr rfl

end Header

/-- Decryption of a well-formed block returns `contents` exactly if the block holds the CBC encryption
of the padded contents, from the vector of the header, under the key derived from the password, the
first eight bytes of the vector and the key length of the cipher. It reports an incorrect password
exactly if no contents are encrypted to what the block holds. The contents are at least one byte and at
most one block shorter, and contents of every length come back from their encryption. -/
theorem decrypt_wellFormed {cipher : Cipher} {vector : Bytes}
    (h : WellFormed block ⟨cipher, vector⟩) (password : Bytes) :
    ∃ key, key = deriveKey password (vector.take 8) cipher.keyLength ∧
      (∀ contents, decrypt block password = .ok contents ↔
        block.contents = Cbc.encrypt (cipher.withKey key) vector
          (BlockPadding.pad cipher.blockSize contents)) ∧
      (decrypt block password = .error .incorrectPassword ↔
        ¬ ∃ contents, block.contents = Cbc.encrypt (cipher.withKey key) vector
          (BlockPadding.pad cipher.blockSize contents)) ∧
      (∀ contents, decrypt block password = .ok contents →
        contents.length < block.contents.length ∧
          block.contents.length ≤ contents.length + cipher.blockSize) ∧
      ∀ contents,
        decrypt ⟨block.tag, block.headerLines, Cbc.encrypt (cipher.withKey key) vector
          (BlockPadding.pad cipher.blockSize contents)⟩ password = .ok contents := by
  refine ⟨_, rfl, h.decrypt_eq_ok_iff password, ?_, ?_, ?_⟩
  · rw [h.decrypt_eq_incorrectPassword_iff password, ← not_exists]
    rfl
  · intro contents hopen
    rw [(h.decrypt_eq_ok_iff password contents).mp hopen]
    exact Parameters.length_encrypt_bounds h.vector password contents
  · intro contents
    exact ((h.with_encrypted password contents).decrypt_eq_ok_iff password contents).mpr rfl

section Sample

/-- The bytes from 0 to 36, which take three blocks of 16 bytes. -/
def sampleContents : Bytes := (List.range 37).map Nat.toUInt8

/-- A block that holds the encrypted form of these bytes. White space around the two parts of the
header and digits of either case are accepted. -/
def sampleBlock : Block where
  tag := "RSA PRIVATE KEY"
  headerLines := ["DEK-Info: AES-128-CBC , 818E85A838BFB7417697a639be0cfeb3"]
  contents :=
    [0xB3, 0x5A, 0x5D, 0x68, 0x2E, 0xD6, 0x99, 0x87, 0x38, 0x1F, 0xE7, 0xD2, 0x04, 0x60, 0x85, 0x51,
      0xF3, 0x95, 0x67, 0x0D, 0x26, 0xEA, 0x78, 0x2B, 0xCF, 0xEA, 0x24, 0x77, 0x16, 0xCA, 0x4F, 0x1A,
      0x1F, 0x9C, 0xDF, 0x57, 0x53, 0xD3, 0x9E, 0x7E, 0x21, 0xA4, 0x9D, 0x32, 0x60, 0xBF, 0x4A, 0x6A]

def sampleVector : Bytes :=
  [0x81, 0x8E, 0x85, 0xA8, 0x38, 0xBF, 0xB7, 0x41, 0x76, 0x97, 0xA6, 0x39, 0xBE, 0x0C, 0xFE, 0xB3]

theorem wellFormed_sampleBlock : WellFormed sampleBlock ⟨.aes128, sampleVector⟩ where
  header := ⟨"AES-128-CBC ", " 818E85A838BFB7417697a639be0cfeb3", by decide, by decide, by decide,
    by decide⟩
  vector := rfl
  nonempty := by decide
  complete := by decide

theorem contents_sampleBlock :
    sampleBlock.contents =
      (⟨.aes128, sampleVector⟩ : Parameters).encrypt (Utf8.encode "secret") sampleContents := by
  decide +kernel

theorem decrypt_sampleBlock :
    WellFormed sampleBlock ⟨.aes128, sampleVector⟩ ∧
      decrypt sampleBlock (Utf8.encode "secret") = .ok sampleContents := by
  obtain ⟨key, rfl, hopen, -⟩ := decrypt_wellFormed wellFormed_sampleBlock (Utf8.encode "secret")
  exact ⟨wellFormed_sampleBlock, (hopen sampleContents).mpr contents_sampleBlock⟩

end Sample

end ClientIdentity.Pem.Encryption
