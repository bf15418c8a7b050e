import ClientIdentity.Proofs.ApiKey.Derived
import ClientIdentity.Proofs.KeyFile.Questions

namespace ClientIdentity.Client

/-- The stages that can fail on the way to a client. Trust roots are not among them. -/
inductive Stage where
  | resolution
  | server
  | apiKey
  | certificateFile
  | anyCertificate
  | keyFile
  | anyKey
  | password
  | decryption
  | keyDecoding
  | pairing
  deriving DecidableEq, Repr

/-- The stages in the order in which they are gone through. -/
def Stage.all : List Stage :=
  [.resolution, .server, .apiKey, .certificateFile, .anyCertificate, .keyFile, .anyKey, .password,
    .decryption, .keyDecoding, .pairing]

namespace Stage

end Stage

section Failures

variable (around : Surroundings) (environment : Environment)

end Failures

section Files

variable {around : Surroundings} {environment : Environment} {certificate key : String}

end Files

section Runs

variable {around other : Surroundings} {environment : Environment} {enclave : Option String}
  {insecure : Bool} {credentials : Credentials}

end Runs

section Agreement

variable {around other : Surroundings} {environment : Environment} {enclave : Option String}
  {insecure : Bool} {credentials : Credentials}

end Agreement

section Questions

variable {around : Surroundings} {environment : Environment} {enclave : Option String}
  {insecure : Bool} {credentials : Credentials}

/-- Credentials name certificates that can be read and a key that is encrypted. -/
def Locked (files : FileSystem) (credentials : Credentials) : Prop :=
  ∃ certificate key, credentials = .files certificate key ∧
    ∃ chain, (KeyFile.readCertificates files (Utf8.encode certificate) = .ok chain ∧ chain ≠ []) ∧
      ∃ block, KeyFile.Selected files key block ∧ block.isEncrypted = true

theorem asksIf_keyPair {files : FileSystem} {reader : SecretReader} {now : Nat} :
    (credentials.keyPair files reader now).AsksIf KeyFile.question (Locked files credentials) := by
  cases credentials with
  | apiKey text =>
    refine Run.asksIf_of_silent ?_ (by rintro ⟨_, _, ⟨⟩, _⟩)
    simp only [Credentials.keyPair]
    split <;> rfl
  | files certificate key =>
    have hlocked : Locked files (.files certificate key) ↔
        ∃ chain, (KeyFile.loadCertificates files certificate).outcome = .ok chain ∧
          ∃ block, KeyFile.Selected files key block ∧ block.isEncrypted = true := by
      simp [Locked, KeyFile.outcome_loadCertificates_eq_ok_iff]
    rw [hlocked]
    exact KeyFile.asksIf_loadKeyPair

theorem questions_make (files : FileSystem) (roots : TrustRoots) (insecure : Bool)
    (pair : KeyPair) : (ClientConfig.make files roots insecure pair).questions = [] := by
  obtain ⟨verification, hverification⟩ :=
    ClientConfig.exists_yields_verificationFor files roots insecure
  refine Run.questions_bind_eq_nil hverification.questions fun first => ?_
  exact Run.questions_bind_eq_nil rfl fun pair => rfl

theorem asksIf_ofEnvironment :
    (ofEnvironment around environment enclave insecure).AsksIf KeyFile.question
      (∃ credentials, Credentials.resolve environment = .ok credentials ∧
        ∃ endpoint, environment.endpoint = .ok endpoint ∧ Locked around.files credentials) := by
  refine Run.AsksIf.behind rfl fun credentials _ => ?_
  refine Run.AsksIf.behind rfl fun endpoint _ => ?_
  refine asksIf_keyPair.before fun pair => ?_
  exact Run.questions_bind_eq_nil (questions_make _ _ _ pair) fun config => rfl

end Questions

section Order

variable (around : Surroundings) (environment : Environment) (enclave : Option String)
  (insecure : Bool)

variable {around environment enclave insecure}

end Order

namespace Sample

/-- A file of certificates without any, and no key. -/
def around : Surroundings where
  files := .ofReadings [(Utf8.encode "client.crt", .ok [])]
  roots := ⟨none, none⟩
  reader _ := ⟨.error .notInteractive, ""⟩
  now := 0

end Sample

end ClientIdentity.Client
