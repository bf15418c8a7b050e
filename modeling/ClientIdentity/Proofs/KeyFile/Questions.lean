import ClientIdentity.Proofs.KeyFile.Selected

namespace ClientIdentity.KeyFile

open Pem

section Agreement

variable {files others : FileSystem} {path certificate key : String}

/-- `loadCertificates` depends on the file system only through the one file. -/
theorem loadCertificates_eq_of_read
    (h : others.read (Utf8.encode path) = files.read (Utf8.encode path)) :
    loadCertificates others path = loadCertificates files path := by
  simp only [loadCertificates, readCertificates, h]

end Agreement

section Questions

variable {reader : SecretReader} {block : Block}

/-- `unlock` asks for the password exactly if the block is encrypted. -/
theorem asksIf_unlock : (unlock reader block).AsksIf question (block.isEncrypted = true) := by
  cases hlocked : block.isEncrypted with
  | false =>
    simp only [unlock, hlocked, Bool.not_false, if_true]
    exact Run.asksIf_of_silent rfl Bool.false_ne_true
  | true =>
    have hask : (Run.ask reader question).AsksIf question True :=
      ⟨fun _ => rfl, fun h => absurd trivial h⟩
    simp only [unlock, hlocked, Bool.not_true, Bool.false_eq_true, if_false]
    refine (Run.yields_log _ _ _).asksIf_bind (hask.before fun password => ?_)
    cases Encryption.decrypt block (Utf8.encode password) <;> rfl

variable {files : FileSystem} {certificate key path : String}

/-- `loadPrivateKey` asks for the password exactly if the selected block is encrypted. -/
theorem asksIf_loadPrivateKey : (loadPrivateKey files reader path).AsksIf question
    (∃ block, Selected files path block ∧ block.isEncrypted = true) := by
  by_cases hselected : ∃ block, Selected files path block
  · obtain ⟨block, contents, hread, hfind⟩ := hselected
    have hlocked : (∃ block, Selected files path block ∧ block.isEncrypted = true) ↔
        block.isEncrypted = true := by
      refine ⟨?_, fun h => ⟨block, ⟨contents, hread, hfind⟩, h⟩⟩
      rintro ⟨other, hother, h⟩
      exact hother.unique ⟨contents, hread, hfind⟩ ▸ h
    simp only [loadPrivateKey, hread, privateKeyIn, find?_found, hfind, hlocked]
    exact (yields_logSkipped _).asksIf_bind (asksIf_unlock.before fun plain => rfl)
  · have hnot : ¬ ∃ block, Selected files path block ∧ block.isEncrypted = true := by
      rintro ⟨block, h, -⟩
      exact hselected ⟨block, h⟩
    refine Run.asksIf_of_silent ?_ hnot
    cases hread : files.read (Utf8.encode path) with
    | error fault =>
      simp only [loadPrivateKey, hread]
      rfl
    | ok contents =>
      have hfind : (blocks contents).find? Block.isPrivateKey = none :=
        Option.eq_none_iff_forall_ne_some.mpr fun block h => hselected ⟨block, contents, hread, h⟩
      simp only [loadPrivateKey, hread, privateKeyIn, find?_found, hfind]
      exact (yields_logSkipped _).questions_bind

/-- The outcome of `loadCertificates` from the certificates that are read, which must not be
none. -/
theorem outcome_loadCertificates (files : FileSystem) (path : String) :
    (loadCertificates files path).outcome =
      match readCertificates files (Utf8.encode path) with
      | .error fault => .error (.readCertificate path fault)
      | .ok [] => .error (.noCertificate path)
      | .ok (first :: more) => .ok (first :: more) := by
  unfold loadCertificates
  rcases readCertificates files (Utf8.encode path) with fault | _ | ⟨first, more⟩ <;> rfl

theorem outcome_loadCertificates_eq_ok_iff {chain : List Bytes} :
    (loadCertificates files path).outcome = .ok chain ↔
      readCertificates files (Utf8.encode path) = .ok chain ∧ chain ≠ [] := by
  rw [outcome_loadCertificates]
  rcases readCertificates files (Utf8.encode path) with fault | _ | ⟨first, more⟩ <;>
    cases chain <;> simp

theorem questions_loadCertificates : (loadCertificates files path).questions = [] := by
  unfold loadCertificates
  split <;> rfl

theorem asksIf_loadKeyPair : (loadKeyPair files reader certificate key).AsksIf question
    (∃ chain, (loadCertificates files certificate).outcome = .ok chain ∧
      ∃ block, Selected files key block ∧ block.isEncrypted = true) := by
  refine Run.AsksIf.behind questions_loadCertificates fun chain _ => ?_
  refine Run.AsksIf.before asksIf_loadPrivateKey fun privateKey => ?_
  exact Run.questions_bind_eq_nil rfl fun pair => rfl

end Questions

section Secrets

variable {block : Block} {files : FileSystem} {certificate key path : String} {chain : List Bytes}

/-- The decryption of a block under a password. -/
def tried (block : Block) (password : String) : Except Encryption.Fault Bytes :=
  Encryption.decrypt block (Utf8.encode password)

/-- The block under a tag with decrypted contents, or the error of the decryption. -/
def opened (tag : String) : Except Encryption.Fault Bytes → Run Block
  | .ok contents => pure ⟨tag, [], contents⟩
  | .error fault => Run.fail (.ofDecryption fault)

/-- `unlock` asks for one password and depends on it only through the outcome of decryption. -/
theorem consults_unlock (hlocked : block.isEncrypted = true) :
    Run.Consults (unlock · block) question (tried block) := by
  have hask : Run.Consults
      (fun reader => Run.ask reader question >>= fun password => opened block.tag (tried block password))
      question (tried block) := by
    refine ⟨[], opened block.tag, fun made => ?_, fun reader => rfl⟩
    cases made <;> rfl
  simp only [unlock, hlocked, Bool.not_true, Bool.false_eq_true, if_false]
  exact (Run.yields_log _ _ _).consults_bind hask

theorem consults_loadPrivateKey (hselected : Selected files path block)
    (hlocked : block.isEncrypted = true) :
    Run.Consults (loadPrivateKey files · path) question (tried block) := by
  obtain ⟨contents, hread, hfind⟩ := hselected
  simp only [loadPrivateKey, hread, privateKeyIn, find?_found, hfind]
  exact (yields_logSkipped _).consults_bind ((consults_unlock hlocked).bind fun plain => rfl)

theorem consults_loadKeyPair
    (hchain : (loadCertificates files certificate).outcome = .ok chain)
    (hselected : Selected files key block) (hlocked : block.isEncrypted = true) :
    Run.Consults (loadKeyPair files · certificate key) question (tried block) := by
  have hcertificates : (loadCertificates files certificate).Yields chain [] :=
    ⟨hchain, questions_loadCertificates⟩
  refine hcertificates.consults_bind ((consults_loadPrivateKey hselected hlocked).bind ?_)
  exact fun privateKey => Run.questions_bind_eq_nil rfl fun pair => rfl

end Secrets

end ClientIdentity.KeyFile
