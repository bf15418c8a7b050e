import ClientIdentity.Client
import ClientIdentity.Proofs.Certificate.Layout
import ClientIdentity.Proofs.Run

namespace ClientIdentity

namespace ClientConfig

/-- `TrustRoots.anchors` succeeds for every list of certificates and asks nothing. -/
theorem exists_yields_anchors (ders : List Bytes) :
    ∃ anchors, (TrustRoots.anchors ders).Yields anchors [] := by
  induction ders with
  | nil => exact ⟨[], Run.yields_pure _⟩
  | cons der rest ih =>
    obtain ⟨more, hmore⟩ := ih
    unfold TrustRoots.anchors
    cases Certificate.parseAnchor der with
    | ok certificate => exact ⟨certificate :: more, hmore.bind_silent (Run.yields_pure _)⟩
    | error fault => exact ⟨more, (Run.yields_log _ _ _).bind_silent hmore⟩

theorem exists_yields_loadRoots (files : FileSystem) (roots : TrustRoots) :
    ∃ anchors, (loadRoots files roots).Yields anchors [] := by
  unfold loadRoots
  cases roots.encoded files with
  | ok ders => exact exists_yields_anchors ders
  | error fault => exact ⟨[], (Run.yields_log _ _ _).bind_silent (Run.yields_pure _)⟩

theorem exists_yields_verificationFor (files : FileSystem) (roots : TrustRoots)
    (insecure : Bool) :
    ∃ verification, (verificationFor files roots insecure).Yields verification [] := by
  unfold verificationFor
  cases insecure with
  | true => exact ⟨.none, (Run.yields_log _ _ _).bind_silent (Run.yields_pure _)⟩
  | false =>
    obtain ⟨anchors, hanchors⟩ := exists_yields_loadRoots files roots
    exact ⟨.roots anchors, hanchors.bind_silent (Run.yields_pure _)⟩

/-- `ClientConfig.make` succeeds exactly if its verification does and `KeyPair.make` returns a pair
for the same chain and key. -/
theorem outcome_make_eq_ok_iff {files : FileSystem} {roots : TrustRoots} {insecure : Bool}
    {pair : KeyPair} {config : ClientConfig} :
    (make files roots insecure pair).outcome = .ok config ↔
      KeyPair.make pair.chain pair.key = .ok config.pair ∧
        (verificationFor files roots insecure).outcome = .ok config.verification := by
  unfold make
  simp only [Run.outcome_bind_eq_ok_iff, Run.outcome_ofExcept, Run.outcome_pure]
  constructor
  · rintro ⟨verification, hverification, remade, hremade, h⟩
    cases h
    exact ⟨Run.mapError_eq_ok_iff.mp hremade, hverification⟩
  · rintro ⟨hmake, hverification⟩
    exact ⟨config.verification, hverification, config.pair, by rw [hmake]; rfl, rfl⟩

end ClientConfig

namespace KeyPair

/-- A key can be used, its public half is `publicKey`, and the first certificate of the chain can
be read and names that public key. Nothing is asked of the other certificates. -/
def Belongs (chain : List Bytes) (key : PrivateKey) (publicKey : PublicKey) : Prop :=
  key.publicKey? = some publicKey ∧
    ∃ leaf rest certificate, chain = leaf :: rest ∧ Certificate.parse leaf = .ok certificate ∧
      Der.encode .sequence certificate.subjectInfo = publicKey.subjectInfo

theorem leaf_eq_ok_iff {chain : List Bytes} {certificate : Certificate} :
    leaf chain = .ok certificate ↔
      ∃ first rest, chain = first :: rest ∧ Certificate.parse first = .ok certificate := by
  cases chain with
  | nil => simp [leaf]
  | cons first rest =>
    cases hparse : Certificate.parse first with
    | error fault => simp [leaf, hparse, Except.mapError]
    | ok parsed => simp [leaf, hparse, Except.mapError]

/-- `load?` returns a signing key with the public key, for every key that has one. -/
theorem load?_eq_some_iff {key : PrivateKey} {signingKey : SigningKey} :
    key.load? = some signingKey ↔
      ∃ publicKey, key.publicKey? = some publicKey ∧ signingKey = publicKey.signingKey := by
  rw [PrivateKey.load?, Option.map_eq_some_iff]
  exact exists_congr fun publicKey => and_congr_right fun _ => eq_comm

/-- `keysMatch` succeeds exactly if the first certificate parses and its SubjectPublicKeyInfo is
that of the public key. -/
theorem keysMatch_eq_ok_iff {chain : List Bytes} {publicKey : PublicKey} :
    keysMatch chain publicKey.signingKey = .ok () ↔
      ∃ first rest certificate, chain = first :: rest ∧ Certificate.parse first = .ok certificate ∧
        Der.encode .sequence certificate.subjectInfo = publicKey.subjectInfo := by
  cases hleaf : leaf chain with
  | error fault =>
    have hunread : ∀ certificate, leaf chain ≠ .ok certificate := by simp [hleaf]
    simp only [leaf_eq_ok_iff, ne_eq, not_exists, not_and] at hunread
    simp only [keysMatch, PublicKey.signingKey, hleaf, reduceCtorEq, false_iff]
    rintro ⟨first, rest, certificate, hchain, hparse, -⟩
    exact hunread certificate first rest hchain hparse
  | ok certificate =>
    obtain ⟨first, rest, rfl, hparse⟩ := leaf_eq_ok_iff.mp hleaf
    simp only [keysMatch, PublicKey.signingKey, hleaf]
    split_ifs with hsame
    · exact iff_of_true rfl ⟨first, rest, certificate, rfl, hparse, hsame⟩
    · simp only [false_iff]
      rintro ⟨_, _, other, hchain, hother, hnames⟩
      cases hchain
      cases hparse.symm.trans hother
      exact hsame hnames

/-- `keysMatch` is never unknown for a signing key that reports its public key. -/
theorem keysMatch_ne_unknown {chain : List Bytes} {publicKey : PublicKey} :
    keysMatch chain publicKey.signingKey ≠ .error .unknown := by
  have hleaf : leaf chain ≠ .error .unknown := by
    cases chain with
    | nil => simp [leaf]
    | cons first rest => cases hparse : Certificate.parse first <;> simp [leaf, hparse, Except.mapError]
  simp only [keysMatch, PublicKey.signingKey]
  split
  · rename_i fault hfault
    simpa [hfault] using hleaf
  · split_ifs <;> simp

/-- `make` returns a pair exactly if the chain belongs to the key, and the pair holds both and the
public key. -/
theorem make_eq_ok_iff {chain : List Bytes} {key : PrivateKey} {pair : KeyPair} :
    make chain key = .ok pair ↔
      ∃ publicKey, Belongs chain key publicKey ∧ pair = ⟨chain, key, publicKey.signingKey⟩ := by
  constructor
  · intro h
    unfold make at h
    split at h
    · cases h
    · rename_i signingKey hload
      obtain ⟨publicKey, hkey, rfl⟩ := load?_eq_some_iff.mp hload
      split at h
      · rename_i hmatch
        exact ⟨publicKey, ⟨hkey, keysMatch_eq_ok_iff.mp hmatch⟩, (Except.ok.inj h).symm⟩
      · rename_i hunknown
        exact absurd hunknown keysMatch_ne_unknown
      · cases h
  · rintro ⟨publicKey, ⟨hkey, hleaf⟩, rfl⟩
    have hload : key.load? = some publicKey.signingKey := load?_eq_some_iff.mpr ⟨publicKey, hkey, rfl⟩
    simp only [make, hload, keysMatch_eq_ok_iff.mpr hleaf]

/-- The key and the certificates of a pair belong together, and the pair reports the public key. -/
def Checked (pair : KeyPair) : Prop :=
  ∃ publicKey, Belongs pair.chain pair.key publicKey ∧ pair.signingKey = publicKey.signingKey

/-- `make` returns a pair for its own chain and key exactly if the pair is checked. -/
theorem make_eq_self_iff {pair : KeyPair} : make pair.chain pair.key = .ok pair ↔ pair.Checked := by
  rw [make_eq_ok_iff]
  refine exists_congr fun publicKey => and_congr_right fun _ => ?_
  obtain ⟨chain, key, signingKey⟩ := pair
  simp

/-- Every way to come by a pair: it is made, copied, loaded from files, derived from an API key,
or found through credentials. Nothing is said about the files, the answers of the reader or the
time. -/
inductive Obtained : KeyPair → Prop where
  | made {chain : List Bytes} {key : PrivateKey} {pair : KeyPair}
      (h : make chain key = .ok pair) : Obtained pair
  | copied {pair : KeyPair} (h : Obtained pair) :
      Obtained ⟨pair.chain, pair.key, pair.signingKey⟩
  | loaded {files : FileSystem} {reader : SecretReader} {certificate key : String}
      {pair : KeyPair}
      (h : (KeyFile.loadKeyPair files reader certificate key).outcome = .ok pair) : Obtained pair
  | derived {key : ApiKey} {now : Nat} {pair : KeyPair}
      (h : (key.keyPair now).outcome = .ok pair) : Obtained pair
  | found {files : FileSystem} {reader : SecretReader} {now : Nat} {credentials : Credentials}
      {pair : KeyPair}
      (h : (credentials.keyPair files reader now).outcome = .ok pair) : Obtained pair

theorem checked_of_make {chain : List Bytes} {key : PrivateKey} {pair : KeyPair}
    (h : make chain key = .ok pair) : pair.Checked := by
  obtain ⟨publicKey, hbelongs, rfl⟩ := make_eq_ok_iff.mp h
  exact ⟨publicKey, hbelongs, rfl⟩

theorem checked_of_ofExcept_make {chain : List Bytes} {key : PrivateKey} {pair : KeyPair}
    (h : (make chain key).mapError Error.keyPair = .ok pair) : pair.Checked :=
  checked_of_make (Run.mapError_eq_ok_iff.mp h)

theorem checked_of_loadKeyPair {files : FileSystem} {reader : SecretReader}
    {certificate key : String} {pair : KeyPair}
    (h : (KeyFile.loadKeyPair files reader certificate key).outcome = .ok pair) : pair.Checked := by
  simp only [KeyFile.loadKeyPair, Run.outcome_bind_eq_ok_iff, Run.outcome_ofExcept,
    Run.outcome_pure] at h
  obtain ⟨chain, -, privateKey, -, made, hmake, -, -, h⟩ := h
  cases h
  exact checked_of_ofExcept_make hmake

theorem checked_of_apiKey {key : ApiKey} {now : Nat} {pair : KeyPair}
    (h : (key.keyPair now).outcome = .ok pair) : pair.Checked := by
  simp only [ApiKey.keyPair, Run.outcome_bind_eq_ok_iff, Run.outcome_ofExcept] at h
  obtain ⟨-, -, hmake⟩ := h
  exact checked_of_ofExcept_make hmake

/-- Every pair that can be obtained is checked. The induction is on the way to it, which ends in
`make` or in a copy. -/
theorem Obtained.checked {pair : KeyPair} (h : Obtained pair) : pair.Checked := by
  induction h with
  | made h => exact checked_of_make h
  | copied _ ih => exact ih
  | loaded h => exact checked_of_loadKeyPair h
  | derived h => exact checked_of_apiKey h
  | @found files reader now credentials pair h =>
    cases credentials with
    | files certificate key => exact checked_of_loadKeyPair h
    | apiKey text =>
      simp only [Credentials.keyPair] at h
      split at h
      · cases h
      · obtain ⟨-, -, h⟩ := Run.outcome_bind_eq_ok_iff.mp h
        exact checked_of_apiKey h

/-- The identity of a checked pair is the SHA-256 digest of the SubjectPublicKeyInfo that the layout
of its leaf holds. -/
theorem exists_layout_of_checked {pair : KeyPair} (h : pair.Checked) :
    ∃ leaf rest certificate layout, pair.chain = leaf :: rest ∧
      Certificate.parse leaf = .ok certificate ∧ leaf = Certificate.Layout.encode layout ∧
      layout.subjectInfo = certificate.subjectInfo ∧
      pair.identity = some ⟨Sha256.digest layout.publicKeyInfo⟩ := by
  obtain ⟨publicKey, ⟨-, leaf, rest, certificate, hchain, hparse, hsame⟩, hreported⟩ := h
  obtain ⟨layout, hleaf, -, -, -, hinfo, -⟩ := Certificate.exists_layout_of_decode hparse
  refine ⟨leaf, rest, certificate, layout, hchain, hparse, hleaf, hinfo, ?_⟩
  rw [identity, hreported, Certificate.Layout.publicKeyInfo, hinfo, hsame]
  rfl

/-- `ClientConfig.make` succeeds for a checked pair whenever its verification succeeds. -/
theorem outcome_config_of_checked {pair : KeyPair} (h : pair.Checked) {files : FileSystem}
    {roots : TrustRoots} {insecure : Bool} {verification : Verification}
    (hverification : (ClientConfig.verificationFor files roots insecure).Yields verification []) :
    (ClientConfig.make files roots insecure pair).outcome = .ok ⟨pair, verification⟩ :=
  ClientConfig.outcome_make_eq_ok_iff.mpr ⟨make_eq_self_iff.mpr h, hverification.outcome⟩

theorem exists_config_of_checked {pair : KeyPair} (h : pair.Checked) (files : FileSystem)
    (roots : TrustRoots) (insecure : Bool) :
    ∃ config, (ClientConfig.make files roots insecure pair).outcome = .ok config ∧
      config.pair = pair := by
  obtain ⟨verification, hverification⟩ :=
    ClientConfig.exists_yields_verificationFor files roots insecure
  exact ⟨⟨pair, verification⟩, outcome_config_of_checked h hverification, rfl⟩

/-- `make` returns a pair exactly if the key loads and the first certificate parses and has the
SubjectPublicKeyInfo of the key; every other outcome is `Error.keyPair`. The identity of every pair
that can be obtained is the SHA-256 digest of the SubjectPublicKeyInfo of its leaf, and
`ClientConfig.make` succeeds with the pair. Keys decrypted with a wrong password are checked like
all others. -/
theorem checked_however_obtained :
    (∀ chain key pair, (make chain key).mapError Error.keyPair = .ok pair ↔
      ∃ publicKey, Belongs chain key publicKey ∧ pair = ⟨chain, key, publicKey.signingKey⟩) ∧
    (∀ chain key, (∀ publicKey, ¬ Belongs chain key publicKey) →
      ∃ fault, (make chain key).mapError Error.keyPair = .error (.keyPair fault)) ∧
    (∀ pair, Obtained pair →
      (∃ leaf rest certificate layout, pair.chain = leaf :: rest ∧
        Certificate.parse leaf = .ok certificate ∧ leaf = Certificate.Layout.encode layout ∧
        layout.subjectInfo = certificate.subjectInfo ∧
        pair.identity = some ⟨Sha256.digest layout.publicKeyInfo⟩) ∧
      ∀ files roots insecure, ∃ config,
        (ClientConfig.make files roots insecure pair).outcome = .ok config ∧
          config.pair = pair) := by
  refine ⟨fun chain key pair => ?_, fun chain key hstranger => ?_, fun pair hobtained => ?_⟩
  · rw [← make_eq_ok_iff]
    cases make chain key <;> simp [Except.mapError]
  · cases hmake : make chain key with
    | error fault => exact ⟨fault, rfl⟩
    | ok pair =>
      obtain ⟨publicKey, hbelongs, -⟩ := make_eq_ok_iff.mp hmake
      exact absurd hbelongs (hstranger publicKey)
  · have hchecked := hobtained.checked
    exact ⟨exists_layout_of_checked hchecked, exists_config_of_checked hchecked⟩

namespace Sample

/-- The public point of the secret number one. -/
def publicKey : PublicKey := .ecdsa .p256 (Weierstrass.p256.publicPoint 1)

/-- The key on P-256 whose secret number is one. -/
def key : PrivateKey where
  kind := .sec1
  der := Der.sequence [Der.natural 1, Der.octetString (Bytes.ofNat 32 1),
    Der.encode (.wrapper 1) (Der.bitString publicKey.bits)]

/-- A certificate of that key which says nothing else. -/
def layout : Certificate.Layout where
  serial := [1]
  algorithm := []
  issuer := []
  validity := []
  subject := []
  subjectInfo := publicKey.subjectInfoContents
  extensions := []
  signature := []

def pair : KeyPair := ⟨[layout.encode], key, publicKey.signingKey⟩

theorem make_pair : make pair.chain pair.key = .ok pair := by
  have hsome : (make pair.chain pair.key).toOption = some pair := by decide +kernel
  cases hmake : make pair.chain pair.key with
  | error fault => simp [hmake, Except.toOption] at hsome
  | ok made => simpa [hmake, Except.toOption] using hsome

end Sample

/-- The sample pair has the identity of its certificate and a client configuration; without its
certificate `make` fails. -/
theorem checked_sample_pair :
    Obtained Sample.pair ∧
      (∃ config, (ClientConfig.make (FileSystem.ofReadings []) ⟨none, none⟩ false
        Sample.pair).outcome = .ok config ∧ config.pair = Sample.pair) ∧
      ∃ fault, (make [] Sample.key).mapError Error.keyPair = .error (.keyPair fault) := by
  have hobtained : Obtained Sample.pair := .made Sample.make_pair
  refine ⟨hobtained, ?_, ?_⟩
  · exact (checked_however_obtained.2.2 Sample.pair hobtained).2 _ _ _
  · refine checked_however_obtained.2.1 [] Sample.key ?_
    rintro publicKey ⟨-, leaf, rest, certificate, hchain, -⟩
    cases hchain

end KeyPair

end ClientIdentity
