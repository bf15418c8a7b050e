import ClientIdentity.Proofs.KeyFile.Questions
import ClientIdentity.Proofs.Pem.Encryption.Defect
import ClientIdentity.Proofs.Terminal

namespace ClientIdentity.KeyFile

open Pem Encryption

/-- A run that unlocks one of the blocks `found` fails for decryption only as decryption itself does.
The other errors that look alike are those of the reader. -/
structure FailsAs {α : Type} (reader : SecretReader) (found : Block → Prop) (run : Run α) :
    Prop where
  /-- The header of an encrypted block is never missed. -/
  headed : run.outcome = .error (.decrypt .missingHeader) →
    (reader question).outcome = .error (.decrypt .missingHeader)
  /-- A wrong password is an error of its own. -/
  unwrapped : run.outcome = .error (.decrypt .incorrectPassword) →
    (reader question).outcome = .error (.decrypt .incorrectPassword)
  refused : run.outcome = .error .incorrectPassword ↔
    ∃ block, found block ∧ block.isEncrypted = true ∧
      ((reader question).outcome = .error .incorrectPassword ∨
        ∃ password, (reader question).outcome = .ok password ∧
          decrypt block (Utf8.encode password) = .error .incorrectPassword)

section Errors

variable {fault : Fault}

theorem ofDecryption_eq_incorrectPassword_iff :
    Error.ofDecryption fault = .incorrectPassword ↔ fault = .incorrectPassword := by
  cases fault <;> simp [Error.ofDecryption]

theorem ofDecryption_eq_decrypt_iff {other : Fault} :
    Error.ofDecryption fault = .decrypt other ↔ fault = other ∧ fault ≠ .incorrectPassword := by
  cases fault <;> simp [Error.ofDecryption]

/-- The reader of a terminal returns no error of decryption. -/
theorem reader_ne_decryption (terminal : Terminal) (question : String) (fault : Fault) :
    (terminal.reader question).outcome ≠ .error (Error.ofDecryption fault) := by
  intro h
  obtain hsame | ⟨other, hsame⟩ := Terminal.reader_eq_error h <;>
    cases fault <;> simp [Error.ofDecryption] at hsame

end Errors

section Unlocking

variable {reader : SecretReader} {block : Block}

/-- A block is not encrypted exactly if it has no encryption header. -/
theorem isEncrypted_eq_false_iff_defect :
    block.isEncrypted = false ↔ Defect block .missingHeader := by
  rw [Block.isEncrypted_eq_false_iff]
  refine ⟨.headerless, fun h => ?_⟩
  cases h with
  | headerless hheaders => exact hheaders

theorem failsAs_unlock (reader : SecretReader) (block : Block) :
    FailsAs reader (· = block) (unlock reader block) := by
  constructor
  · intro h
    obtain ⟨hlocked, hown | ⟨password, fault, -, hfault, herror⟩⟩ := outcome_unlock_eq_error_iff.mp h
    · exact hown
    · obtain ⟨rfl, hne⟩ := ofDecryption_eq_decrypt_iff.mp herror
      rw [decrypt_eq_error_iff, or_iff_left fun h => hne h.1] at hfault
      rw [isEncrypted_eq_false_iff_defect.mpr hfault] at hlocked
      cases hlocked
  · intro h
    obtain ⟨-, hown | ⟨password, fault, -, -, herror⟩⟩ := outcome_unlock_eq_error_iff.mp h
    · exact hown
    · obtain ⟨rfl, hne⟩ := ofDecryption_eq_decrypt_iff.mp herror
      exact absurd rfl hne
  · rw [outcome_unlock_eq_error_iff, Refused]
    simp only [ofDecryption_eq_incorrectPassword_iff, exists_eq_left, exists_eq_right_right]

end Unlocking

section Loading

variable {files : FileSystem} {reader : SecretReader} {path : String} {error : Error}

/-- An error of `loadPrivateKey` that is none of reading the file, finding a block or parsing the
key comes from unlocking the selected block. -/
theorem outcome_loadPrivateKey_eq_error_iff (hread : ∀ fault, error ≠ .readPrivateKey path fault)
    (hfind : error ≠ .noPrivateKey) (hkey : ∀ fault, error ≠ .keyPair fault) :
    (loadPrivateKey files reader path).outcome = .error error ↔
      ∃ block, Selected files path block ∧ (unlock reader block).outcome = .error error := by
  constructor
  · intro h
    cases hcontents : files.read (Utf8.encode path) with
    | error fault =>
      rw [loadPrivateKey, hcontents] at h
      exact absurd (Except.error.inj h).symm (hread fault)
    | ok contents =>
      cases hblock : (blocks contents).find? Block.isPrivateKey with
      | none =>
        rw [loadPrivateKey, hcontents] at h
        simp only [outcome_privateKeyIn, hblock] at h
        exact absurd (Except.error.inj h).symm hfind
      | some block =>
        have hselected : Selected files path block := ⟨contents, hcontents, hblock⟩
        rw [outcome_loadPrivateKey_of_selected hselected, Run.outcome_bind_eq_error_iff] at h
        obtain hunlock | ⟨plain, -, hfailed⟩ := h
        · exact ⟨block, hselected, hunlock⟩
        · obtain ⟨fault, -, herror⟩ := Run.mapError_eq_error_iff.mp hfailed
          exact absurd herror.symm (hkey fault)
  · rintro ⟨block, hselected, h⟩
    rw [outcome_loadPrivateKey_of_selected hselected]
    exact Run.outcome_bind_eq_error_iff.mpr (.inl h)

theorem failsAs_loadPrivateKey (files : FileSystem) (reader : SecretReader) (path : String) :
    FailsAs reader (Selected files path) (loadPrivateKey files reader path) := by
  constructor
  · rw [outcome_loadPrivateKey_eq_error_iff (by simp) (by simp) (by simp)]
    rintro ⟨block, -, h⟩
    exact (failsAs_unlock reader block).headed h
  · rw [outcome_loadPrivateKey_eq_error_iff (by simp) (by simp) (by simp)]
    rintro ⟨block, -, h⟩
    exact (failsAs_unlock reader block).unwrapped h
  · rw [outcome_loadPrivateKey_eq_error_iff (by simp) (by simp) (by simp)]
    refine exists_congr fun block => and_congr_right fun _ => ?_
    rw [(failsAs_unlock reader block).refused]
    exact exists_eq_left

end Loading

/-- `decrypt` fails with the first defect of the block under every password; for a block without
defects it returns contents or reports an incorrect password. The derived key and the vector always
have the sizes of the cipher, and the vector has the eight bytes of the salt. `unlock` and
`loadPrivateKey` never report a missing header, and report an incorrect password exactly if
`decrypt` does; no error of a reader at a terminal is one of decryption. -/
theorem fails_for_defect_or_password :
    (∀ (block : Block) (password : Bytes),
      (∀ fault, Defect block fault ↔
        fault ≠ .incorrectPassword ∧ decrypt block password = .error fault) ∧
      ((∀ fault, ¬ Defect block fault) →
        decrypt block password = .error .incorrectPassword ∨
          ∃ contents, decrypt block password = .ok contents) ∧
      decrypt block password ≠ .error .invalidKeyLength ∧
      decryptSliced block password = some (decrypt block password)) ∧
    (∀ reader block, FailsAs reader (· = block) (unlock reader block)) ∧
    (∀ files reader path,
      FailsAs reader (Selected files path) (loadPrivateKey files reader path)) ∧
    ∀ (terminal : Terminal) question fault,
      (terminal.reader question).outcome ≠ .error (Error.ofDecryption fault) := by
  refine ⟨fun block password => ⟨fun fault => ?_, fun hsound => ?_, fun hrefused => ?_,
    decryptSliced_eq block password⟩, failsAs_unlock, failsAs_loadPrivateKey, reader_ne_decryption⟩
  · rw [decrypt_eq_error_iff]
    constructor
    · exact fun h => ⟨h.ne_incorrectPassword, .inl h⟩
    · rintro ⟨hne, h | ⟨hsame, -⟩⟩
      · exact h
      · exact absurd hsame hne
  · cases hdecrypt : decrypt block password with
    | ok contents => exact .inr ⟨contents, rfl⟩
    | error fault =>
      obtain h | ⟨rfl, -⟩ := (decrypt_eq_error_iff password).mp hdecrypt
      · exact absurd h (hsound fault)
      · exact .inl rfl
  · obtain hdefect | ⟨hsame, -⟩ := (decrypt_eq_error_iff password).mp hrefused
    · cases hdefect
    · cases hsame

end ClientIdentity.KeyFile
