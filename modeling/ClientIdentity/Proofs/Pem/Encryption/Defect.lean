import ClientIdentity.Proofs.Pem.Block
import ClientIdentity.Proofs.Pem.Decryption

namespace ClientIdentity.Pem.Encryption

/-- The last encryption header has these two parts around its first comma. -/
def Names (block : Block) (name digits : String) : Prop :=
  block.Says Block.encryptionHeader (name ++ "," ++ digits) ∧ ',' ∉ name.toList

/-- The defects of a block, each with the fault that it is reported as. A defect is only one if there
is none in front of it: the parts of the header that it speaks of are those that came out right. -/
inductive Defect (block : Block) : Fault → Prop where
  | headerless (h : ∀ header ∈ block.headers, header.1 ≠ Block.encryptionHeader) :
      Defect block .missingHeader
  | commaless {value : String} (hvalue : block.Says Block.encryptionHeader value)
      (hcomma : ',' ∉ value.toList) : Defect block (.malformedHeader value)
  | unknownCipher {name digits : String} (hheader : Names block name digits)
      (hname : ∀ cipher : Cipher, Blank.trim name ≠ cipher.name) :
      Defect block (.unsupportedCipher (Blank.trim name))
  | badDigits {name digits : String} {cipher : Cipher} (hheader : Names block name digits)
      (hname : Blank.trim name = cipher.name) (hdigits : ¬ Hex.IsDigits (Blank.trim digits)) :
      Defect block (.malformedHeader (name ++ "," ++ digits))
  | badVector {name digits : String} {cipher : Cipher} {vector : Bytes}
      (hheader : Names block name digits) (hname : Blank.trim name = cipher.name)
      (hdigits : Hex.decode? (Blank.trim digits) = some vector)
      (hvector : vector.length ≠ cipher.blockSize) :
      Defect block (.invalidVector cipher.blockSize vector.length)
  | badLength {name digits : String} {cipher : Cipher} {vector : Bytes}
      (hheader : Names block name digits) (hname : Blank.trim name = cipher.name)
      (hdigits : Hex.decode? (Blank.trim digits) = some vector)
      (hvector : vector.length = cipher.blockSize)
      (hcontents : block.contents = [] ∨ block.contents.length % cipher.blockSize ≠ 0) :
      Defect block .invalidLength

section Header

variable {block : Block} {value name digits : String}

/-- `Cipher.ofName?` fails exactly for the names of no cipher. -/
theorem Cipher.ofName?_eq_none_iff : Cipher.ofName? name = none ↔ ∀ cipher : Cipher, name ≠ cipher.name := by
  simp only [Option.eq_none_iff_forall_ne_some, ne_eq, Cipher.ofName?_eq_some_iff]

theorem parse_commaless (hcomma : ',' ∉ value.toList) :
    Parameters.parse value = .error (.malformedHeader value) := by
  have hcut : Split.atFirst? ',' value = none := Split.atFirst?_eq_none_iff.mpr hcomma
  simp only [Parameters.parse, hcut]

theorem Names.cut (h : Names block name digits) :
    Split.atFirst? ',' (name ++ "," ++ digits) = some (name, digits) :=
  Split.atFirst?_append digits h.2

end Header

section Defects

variable {block : Block} {fault : Fault}

/-- `parametersOf` fails with the defect of the block. -/
theorem Defect.parametersOf (h : Defect block fault) : parametersOf block = .error fault := by
  cases h with
  | headerless hheaders =>
    simp only [Encryption.parametersOf, Block.get?_eq_none_iff.mpr hheaders]
  | commaless hvalue hcomma =>
    simp only [Encryption.parametersOf, Block.get?_eq_some_iff.mpr hvalue, parse_commaless hcomma]
  | unknownCipher hheader hname =>
    simp only [Encryption.parametersOf, Block.get?_eq_some_iff.mpr hheader.1, Parameters.parse,
      hheader.cut, Cipher.ofName?_eq_none_iff.mpr hname]
  | badDigits hheader hname hdigits =>
    simp only [Encryption.parametersOf, Block.get?_eq_some_iff.mpr hheader.1, Parameters.parse,
      hheader.cut, Cipher.ofName?_eq_some_iff.mpr hname, Hex.decode?_eq_none_iff.mpr hdigits]
  | badVector hheader hname hdigits hvector =>
    simp only [Encryption.parametersOf, Block.get?_eq_some_iff.mpr hheader.1, Parameters.parse,
      hheader.cut, Cipher.ofName?_eq_some_iff.mpr hname, hdigits, if_neg hvector]
  | badLength hheader hname hdigits hvector hcontents =>
    simp only [Encryption.parametersOf, Block.get?_eq_some_iff.mpr hheader.1, Parameters.parse,
      hheader.cut, Cipher.ofName?_eq_some_iff.mpr hname, hdigits, if_pos hvector,
      if_pos hcontents]

/-- Every block has a defect or is well formed. -/
theorem defect_or_wellFormed (block : Block) :
    (∃ fault, Defect block fault) ∨ ∃ parameters, WellFormed block parameters := by
  cases hget : block.get? Block.encryptionHeader with
  | none => exact .inl ⟨_, .headerless (Block.get?_eq_none_iff.mp hget)⟩
  | some value =>
    have hvalue := Block.get?_eq_some_iff.mp hget
    cases hcut : Split.atFirst? ',' value with
    | none => exact .inl ⟨_, .commaless hvalue (Split.atFirst?_eq_none_iff.mp hcut)⟩
    | some parts =>
      obtain ⟨name, digits⟩ := parts
      obtain ⟨rfl, hcomma⟩ := Split.eq_of_atFirst? hcut
      have hheader : Names block name digits := ⟨hvalue, hcomma⟩
      cases hcipher : Cipher.ofName? (Blank.trim name) with
      | none => exact .inl ⟨_, .unknownCipher hheader (Cipher.ofName?_eq_none_iff.mp hcipher)⟩
      | some cipher =>
        have hname := Cipher.ofName?_eq_some_iff.mp hcipher
        cases hdigits : Hex.decode? (Blank.trim digits) with
        | none => exact .inl ⟨_, .badDigits hheader hname (Hex.decode?_eq_none_iff.mp hdigits)⟩
        | some vector =>
          by_cases hvector : vector.length = cipher.blockSize
          · by_cases hcontents : block.contents = [] ∨
                block.contents.length % cipher.blockSize ≠ 0
            · exact .inl ⟨_, .badLength hheader hname hdigits hvector hcontents⟩
            · obtain ⟨hne, hcomplete⟩ := not_or.mp hcontents
              exact .inr ⟨⟨cipher, vector⟩, ⟨name, digits, hget, hcomma, hname, hdigits⟩, hvector,
                hne, not_not.mp hcomplete⟩
          · exact .inl ⟨_, .badVector hheader hname hdigits hvector⟩

/-- `parametersOf` fails exactly with the defect of the block. -/
theorem parametersOf_eq_error_iff : parametersOf block = .error fault ↔ Defect block fault := by
  refine ⟨fun h => ?_, Defect.parametersOf⟩
  rcases defect_or_wellFormed block with ⟨other, hother⟩ | ⟨parameters, hparameters⟩
  · rw [hother.parametersOf] at h
    exact Except.error.inj h ▸ hother
  · rw [parametersOf_eq_ok_iff.mpr hparameters] at h
    cases h

theorem Defect.ne_incorrectPassword (h : Defect block fault) : fault ≠ .incorrectPassword := by
  cases h <;> simp

theorem WellFormed.not_defect {parameters : Parameters} (h : WellFormed block parameters) :
    ¬ Defect block fault := by
  intro hdefect
  have hparameters := parametersOf_eq_ok_iff.mpr h
  rw [hdefect.parametersOf] at hparameters
  cases hparameters

/-- `decrypt` fails with the defect of the block, or with an incorrect password for a well-formed
one. -/
theorem decrypt_eq_error_iff (password : Bytes) : decrypt block password = .error fault ↔
    Defect block fault ∨ fault = .incorrectPassword ∧
      ∃ parameters, WellFormed block parameters ∧
        parameters.decrypt password block.contents = .error .incorrectPassword := by
  cases hparameters : Encryption.parametersOf block with
  | error other =>
    have hdefect := parametersOf_eq_error_iff.mp hparameters
    have hill : ¬ ∃ parameters, WellFormed block parameters ∧
        parameters.decrypt password block.contents = .error .incorrectPassword :=
      fun ⟨_, hwell, _⟩ => hwell.not_defect hdefect
    simp only [decrypt, hparameters, Except.error.injEq, hill, and_false, or_false]
    rw [← parametersOf_eq_error_iff, hparameters, Except.error.injEq]
  | ok parameters =>
    have hwell := parametersOf_eq_ok_iff.mp hparameters
    have hsame : ∀ found, WellFormed block found → found = parameters := fun found hfound =>
      Except.ok.inj ((parametersOf_eq_ok_iff.mpr hfound).symm.trans hparameters)
    rw [hwell.decrypt_eq password, or_iff_right hwell.not_defect]
    obtain ⟨contents, hopened⟩ | hrefused :=
      Parameters.decrypt_eq_ok_or hwell.vector password block.contents
    · simp only [hopened, reduceCtorEq, false_iff, not_and, not_exists]
      intro _ found hfound
      rw [hsame found hfound, hopened]
      simp
    · simp only [hrefused, Except.error.injEq]
      exact ⟨fun h => ⟨h.symm, parameters, hwell, hrefused⟩, fun h => h.1.symm⟩

end Defects

section Slices

/-- Decryption that cuts the salt off the vector only if the vector has its bytes, and has no outcome
otherwise. -/
def decryptSliced (block : Block) (password : Bytes) : Option (Except Fault Bytes) :=
  match parametersOf block with
  | .error fault => some (.error fault)
  | .ok parameters =>
    if Parameters.saltLength ≤ parameters.vector.length then
      some (parameters.decrypt password block.contents)
    else
      none

/-- `decryptSliced`, which takes eight bytes of the vector without a check, never runs out of
them. -/
theorem decryptSliced_eq (block : Block) (password : Bytes) :
    decryptSliced block password = some (decrypt block password) := by
  obtain ⟨fault, hdefect⟩ | ⟨parameters, hparameters⟩ := defect_or_wellFormed block
  · simp only [decryptSliced, decrypt, hdefect.parametersOf]
  · have hsalted : Parameters.saltLength ≤ parameters.vector.length := by
      rw [hparameters.vector]
      cases parameters.cipher <;> decide
    simp only [decryptSliced, decrypt, parametersOf_eq_ok_iff.mpr hparameters, if_pos hsalted]

end Slices

end ClientIdentity.Pem.Encryption
