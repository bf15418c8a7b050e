import ClientIdentity.Proofs.ApiKey.Written
import ClientIdentity.Proofs.Client
import ClientIdentity.Proofs.CommandLine.Transcript

namespace ClientIdentity

/-- Two pairs that `make` returns for their own chains and keys, with the same identity. -/
structure KeyPair.OneIdentity (pair other : KeyPair) : Prop where
  identity : pair.identity = other.identity
  made : make pair.chain pair.key = .ok pair
  otherMade : make other.chain other.key = .ok other

namespace ApiKey

variable {key other : ApiKey}

theorem make_certificate (key : ApiKey) {now : Nat} (hnow : now < 2 ^ 64) :
    KeyPair.make [key.certificate now] key.privateKey =
      .ok ⟨[key.certificate now], key.privateKey, key.publicKey.signingKey⟩ := by
  obtain ⟨-, -, hmake⟩ := Run.outcome_bind_eq_ok_iff.mp (key.outcome_keyPair hnow)
  exact Run.mapError_eq_ok_iff.mp hmake

/-- Two API keys of one identity have pairs of that identity, with equal logs, at any two times of
64 bits. -/
theorem seenAlike_keyPair (hidentity : key.identity = other.identity) {now later : Nat}
    (hnow : now < 2 ^ 64) (hlater : later < 2 ^ 64) :
    Run.SeenAlike KeyPair.OneIdentity (key.keyPair now) (other.keyPair later) := by
  have hmade := key.make_certificate hnow
  have hotherMade := other.make_certificate hlater
  rw [keyPair, keyPair, hidentity]
  refine (Run.SeenAlike.refl _).bind fun _ _ _ => Run.seenAlike_ofExcept
    (Run.mapError_eq_ok_iff.mpr hmade) (Run.mapError_eq_ok_iff.mpr hotherMade) ?_
  exact ⟨congrArg some hidentity, hmade, hotherMade⟩

end ApiKey

/-- Two pairs of one identity are configured with equal logs, which are those of the trust roots. -/
theorem ClientConfig.seenAlike_make {pair other : KeyPair} (h : pair.OneIdentity other)
    (files : FileSystem) (roots : TrustRoots) (insecure : Bool) :
    Run.SeenAlike (fun _ _ => True) (make files roots insecure pair)
      (make files roots insecure other) := by
  have hremade : Run.SeenAlike (fun _ _ => True)
      (Run.ofExcept ((KeyPair.make pair.chain pair.key).mapError Error.clientConfig))
      (Run.ofExcept ((KeyPair.make other.chain other.key).mapError Error.clientConfig)) :=
    Run.seenAlike_ofExcept (Run.mapError_eq_ok_iff.mpr h.made)
      (Run.mapError_eq_ok_iff.mpr h.otherMade) trivial
  refine (Run.SeenAlike.refl _).bind fun verification _ hverification => ?_
  subst hverification
  exact hremade.bind fun _ _ _ => Run.seenAlike_pure trivial

namespace CommandLine

/-- Two settings that agree on everything that a program may show but for the API key. Terminals,
times and random bytes may differ. -/
structure Setting.SameButForKey (first second : Setting) : Prop where
  lookup : ∀ name, name ≠ Variable.apiKey.name → first.lookup name = second.lookup name
  files : first.files = second.files
  stamp : first.stamp = second.stamp

/-- Two environments with an API key each, and with the same other variables. -/
structure Paired (first second : Environment) (text other : String) : Prop where
  apiKey : first.apiKey = some text
  otherApiKey : second.apiKey = some other
  server : first.server = second.server
  certificate : first.certificate = second.certificate
  privateKey : first.privateKey = second.privateKey
  enclave : first.enclave = second.enclave

namespace Paired

variable {first second : Environment} {text other : String} (h : Paired first second text other)

include h

/-- `resolve` gives API keys for both environments, or the same error for both. -/
theorem seenAlike_resolve : Run.SeenAlike
    (fun credentials otherCredentials => credentials = .apiKey text ∧
      otherCredentials = .apiKey other ∧ first.certificate = none ∧ first.privateKey = none)
    (Run.ofExcept (Credentials.resolve first)) (Run.ofExcept (Credentials.resolve second)) := by
  simp only [Credentials.resolve, h.apiKey, h.otherApiKey, ← h.certificate, ← h.privateKey]
  cases hcertificate : first.certificate with
  | some path => exact Run.seenAlike_fail _
  | none =>
    cases hkey : first.privateKey with
    | some path => exact Run.seenAlike_fail _
    | none => exact Run.seenAlike_ofExcept rfl rfl ⟨rfl, rfl, rfl, rfl⟩

/-- Two environments that differ only in API keys of one identity give clients of that identity with
equal logs. With a path beside the API keys they give the same error for all values of the
variable. -/
theorem seenAlike_ofEnvironment {around otherAround : Client.Surroundings} (enclave : Option String)
    (insecure : Bool) (hfiles : around.files = otherAround.files)
    (hroots : around.roots = otherAround.roots) (hnow : around.now < 2 ^ 64)
    (hother : otherAround.now < 2 ^ 64)
    (hkeys : first.certificate = none → first.privateKey = none → ∃ key otherKey,
      ApiKey.parse text = .ok key ∧ ApiKey.parse other = .ok otherKey ∧
        key.identity = otherKey.identity) :
    Run.SeenAlike (fun client otherClient => clientLines client = clientLines otherClient)
      (Client.ofEnvironment around first enclave insecure)
      (Client.ofEnvironment otherAround second enclave insecure) := by
  rw [Client.ofEnvironment, Client.ofEnvironment]
  refine h.seenAlike_resolve.bind ?_
  rintro _ _ ⟨rfl, rfl, hcertificate, hprivateKey⟩
  obtain ⟨key, otherKey, hkey, hotherKey, hidentity⟩ := hkeys hcertificate hprivateKey
  have hendpoint : first.endpoint = second.endpoint := by
    rw [Environment.endpoint, Environment.endpoint, h.server]
  rw [hendpoint]
  refine (Run.SeenAlike.refl _).bind fun endpoint _ hsame => ?_
  subst hsame
  have hpair : Run.SeenAlike KeyPair.OneIdentity
      ((Credentials.apiKey text).keyPair around.files around.reader around.now)
      ((Credentials.apiKey other).keyPair otherAround.files otherAround.reader otherAround.now) := by
    simp only [Credentials.keyPair, hkey, hotherKey]
    rw [hidentity]
    exact (Run.SeenAlike.refl _).bind fun _ _ _ => ApiKey.seenAlike_keyPair hidentity hnow hother
  refine hpair.bind fun pair otherPair hpairs => ?_
  rw [hfiles, hroots]
  refine (ClientConfig.seenAlike_make hpairs _ _ _).bind fun config otherConfig _ => ?_
  refine Run.seenAlike_pure (clientLines_congr rfl ?_ hpairs.identity)
  simp only [Environment.enclaveFor, h.enclave]

end Paired

section Settings

variable {first second : Setting} {text other : String} {arguments : List Bytes}

/-- Two settings that differ only in the API key have environments that differ only in it. -/
theorem Setting.SameButForKey.paired (hsame : first.SameButForKey second)
    (htext : first.environment.apiKey = some text)
    (hother : second.environment.apiKey = some other) :
    Paired first.environment second.environment text other where
  apiKey := htext
  otherApiKey := hother
  server := congrArg (Option.map Utf8.lossy) (hsame.lookup _ (by decide))
  certificate := congrArg (Option.map Utf8.lossy) (hsame.lookup _ (by decide))
  privateKey := congrArg (Option.map Utf8.lossy) (hsame.lookup _ (by decide))
  enclave := congrArg (Option.map Utf8.lossy) (hsame.lookup _ (by decide))

theorem Setting.SameButForKey.roots_eq (hsame : first.SameButForKey second) :
    TrustRoots.ofProcess first.lookup = TrustRoots.ofProcess second.lookup := by
  rw [TrustRoots.ofProcess, TrustRoots.ofProcess, hsame.lookup TrustRoots.fileVariable (by decide),
    hsame.lookup TrustRoots.directoryVariable (by decide)]

/-- With an API key in the environment, making the client asks no question. -/
theorem questions_clientRun (htext : first.environment.apiKey = some text) (enclave : Option String)
    (insecure : Bool) : (clientRun first enclave insecure).questions = [] := by
  refine Client.asksIf_ofEnvironment.silent ?_
  rintro ⟨credentials, hresolve, -, -, certificate, key, rfl, -⟩
  simp only [Credentials.resolve, htext] at hresolve
  split_ifs at hresolve
  cases hresolve

/-- `run` returns equal transcripts if the clients of both settings are made with equal logs and are
shown alike. -/
theorem run_eq_of_seenAlike (hstamp : first.stamp = second.stamp)
    (hidentity : ∀ verbose, parse arguments ≠ .ok ⟨.makeApiKey, verbose⟩)
    (htext : first.environment.apiKey = some text) (hother : second.environment.apiKey = some other)
    (hseen : ∀ enclave insecure, Run.SeenAlike
      (fun client otherClient => clientLines client = clientLines otherClient)
      (clientRun first enclave insecure) (clientRun second enclave insecure)) :
    run first arguments = run second arguments := by
  rw [run_eq_complete fun enclave insecure _ _ => questions_clientRun htext enclave insecure,
    run_eq_complete fun enclave insecure _ _ => questions_clientRun hother enclave insecure,
    complete, complete]
  cases hparse : parse arguments with
  | error halt => rfl
  | ok request =>
    obtain ⟨⟨enclave, insecure⟩ | _, verbose⟩ := request
    · obtain ⟨hevents, ⟨error, hfirst, hsecond⟩ | ⟨client, otherClient, hfirst, hsecond, hlines⟩⟩ :=
        hseen enclave insecure
      · simp only [Request.execute, hfirst, hsecond, hevents, hstamp, Request.level]
      · simp only [Request.execute, hfirst, hsecond, hevents, hstamp, hlines, Request.level]
    · exact absurd hparse (hidentity verbose)

end Settings

/-- `run` returns equal transcripts for two settings that differ only in API keys of one identity,
for every command line that does not generate a key. If a path of a file is set beside the API keys,
then for any two values of the variable, valid or not. The transcripts do not depend on the terminal
or the time either, since no question is asked and no certificate is shown. -/
theorem run_eq_of_identity {first second : Setting} (hsame : first.SameButForKey second)
    (hfirst : first.now < 2 ^ 64) (hsecond : second.now < 2 ^ 64) {arguments : List Bytes}
    (hidentity : ∀ verbose, parse arguments ≠ .ok ⟨.makeApiKey, verbose⟩) {text other : String}
    (htext : first.environment.apiKey = some text)
    (hother : second.environment.apiKey = some other) :
    (∀ key otherKey, ApiKey.parse text = .ok key → ApiKey.parse other = .ok otherKey →
      key.identity = otherKey.identity → run first arguments = run second arguments) ∧
    (first.environment.certificate.isSome ∨ first.environment.privateKey.isSome →
      run first arguments = run second arguments) := by
  have hseen := fun hkeys => run_eq_of_seenAlike hsame.stamp hidentity htext hother
    fun enclave insecure => (hsame.paired htext hother).seenAlike_ofEnvironment enclave insecure
      hsame.files hsame.roots_eq hfirst hsecond hkeys
  refine ⟨fun key otherKey hkey hotherKey heq => ?_, fun hpaths => ?_⟩
  · exact hseen fun _ _ => ⟨key, otherKey, hkey, hotherKey, heq⟩
  · refine hseen fun hcertificate hprivateKey => ?_
    rw [hcertificate, hprivateKey] at hpaths
    simp at hpaths

namespace Sample

/-- The variable of the API key with this value. -/
def keyVariable (value : String) : String × String := (Variable.apiKey.name, value)

/-- The variable of the certificate. -/
def certificateVariable : String × String := (Variable.certificate.name, "client.crt")

def verboseIdentity : List Bytes := [Utf8.encode "-v", Utf8.encode "identity"]

theorem apiKey_setting (value : String) (more : List (String × String)) (terminal : Terminal)
    (now : Nat) :
    (setting (keyVariable value :: more) terminal now).environment.apiKey = some value := by
  simp [setting, keyVariable, Setting.environment, Environment.ofProcess, Environment.ofLookup,
    Utf8.lossy_encode]

theorem sameButForKey_setting (value other : String) (more : List (String × String))
    (terminal otherTerminal : Terminal) (now later : Nat) :
    (setting (keyVariable value :: more) terminal now).SameButForKey
      (setting (keyVariable other :: more) otherTerminal later) where
  lookup name hname := by
    have hother : (name == Variable.apiKey.name) = false := beq_eq_false_iff_ne.mpr hname
    simp [setting, keyVariable, List.lookup_cons, hother]
  files := rfl
  stamp := rfl

theorem not_makeApiKey (verbose : Bool) : parse verboseIdentity ≠ .ok ⟨.makeApiKey, verbose⟩ := by
  have hparse : parse verboseIdentity = .ok ⟨.showIdentity none false, true⟩ := by decide +kernel
  rw [hparse]
  simp

end Sample

/-- One API key at two terminals and two times; and an API key and an invalid text, beside a
path. -/
theorem run_eq_of_identity_samples :
    run (Sample.setting [Sample.keyVariable ApiKey.sampleKey.text] Sample.attended 0)
        Sample.verboseIdentity =
      run (Sample.setting [Sample.keyVariable ApiKey.sampleKey.text] Sample.unattended 1)
        Sample.verboseIdentity ∧
    run (Sample.setting [Sample.keyVariable ApiKey.sampleKey.text, Sample.certificateVariable]
        Sample.attended 0) Sample.verboseIdentity =
      run (Sample.setting [Sample.keyVariable "kes:v1:none", Sample.certificateVariable]
        Sample.attended 0) Sample.verboseIdentity := by
  have hparse := ApiKey.parse_text ApiKey.sampleKey
  constructor
  · exact (run_eq_of_identity (Sample.sameButForKey_setting _ _ _ _ _ _ _) (by decide) (by decide)
      Sample.not_makeApiKey (Sample.apiKey_setting _ _ _ _) (Sample.apiKey_setting _ _ _ _)).1 _ _
        hparse hparse rfl
  · exact (run_eq_of_identity (Sample.sameButForKey_setting _ _ _ _ _ _ _) (by decide) (by decide)
      Sample.not_makeApiKey (Sample.apiKey_setting _ _ _ _) (Sample.apiKey_setting _ _ _ _)).2
        (.inl (by decide +kernel))

end CommandLine

end ClientIdentity
