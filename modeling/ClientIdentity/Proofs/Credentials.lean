import ClientIdentity.Credentials
import ClientIdentity.Proofs.Run
import ClientIdentity.Proofs.Text.Blank

namespace ClientIdentity.Credentials

/-- A variable is set to a text that holds more than white space. -/
def Given (value : Option String) (text : String) : Prop :=
  value = some text ∧ ∃ c ∈ text.toList, Blank.isBlank c = false

/-- What is wrong with a variable that must be set and not blank. -/
inductive Lacking (value : Option String) (name : Variable) (missing : String) : Error → Prop where
  | unset (hvalue : value = none) : Lacking value name missing (.notSet name missing)
  | blank {text : String} (hvalue : value = some text)
      (hblank : Blank.trim text = "") : Lacking value name missing (.blank name missing)

/-- Why an environment names no credentials. Beside an API key no file may be named, not even by a
blank value. Without one, the certificate is asked for before the key. -/
inductive Refused (environment : Environment) : Error → Prop where
  | certificateConflict {text path : String} (hapiKey : environment.apiKey = some text)
      (hcertificate : environment.certificate = some path) :
      Refused environment (.conflictingVariables .apiKey .certificate)
  | keyConflict {text path : String} (hapiKey : environment.apiKey = some text)
      (hcertificate : environment.certificate = none) (hkey : environment.privateKey = some path) :
      Refused environment (.conflictingVariables .apiKey .privateKey)
  | certificate {error : Error} (hapiKey : environment.apiKey = none)
      (hlacking : Lacking environment.certificate .certificate "no TLS client certificate" error) :
      Refused environment error
  | key {path : String} {error : Error} (hapiKey : environment.apiKey = none)
      (hcertificate : Given environment.certificate path)
      (hlacking : Lacking environment.privateKey .privateKey "no TLS private key" error) :
      Refused environment error

section Required

variable {value : Option String} {name : Variable} {missing text : String} {error : Error}

theorem required_of_given (h : Given value text) : required value name missing = .ok text := by
  obtain ⟨rfl, hsome⟩ := h
  rw [required, if_neg (Blank.isBlankText_eq_false_iff.mpr hsome ▸ Bool.false_ne_true)]

theorem required_of_lacking (h : Lacking value name missing error) :
    required value name missing = .error error := by
  cases h with
  | unset hvalue =>
    rw [hvalue]
    rfl
  | blank hvalue hblank =>
    rw [hvalue, required, if_pos (Blank.isBlankText_iff_trim.mpr hblank)]

/-- Every variable is given or lacking. -/
theorem given_or_lacking (value : Option String) (name : Variable) (missing : String) :
    (∃ text, Given value text) ∨ ∃ error, Lacking value name missing error := by
  cases value with
  | none => exact .inr ⟨_, .unset rfl⟩
  | some text =>
    cases hblank : Blank.isBlankText text with
    | false => exact .inl ⟨text, rfl, Blank.isBlankText_eq_false_iff.mp hblank⟩
    | true => exact .inr ⟨_, .blank rfl (Blank.isBlankText_iff_trim.mp hblank)⟩

end Required

section Resolve

variable {environment : Environment} {text certificate key : String} {error : Error}

theorem resolve_of_apiKey (hapiKey : environment.apiKey = some text)
    (hcertificate : environment.certificate = none) (hkey : environment.privateKey = none) :
    resolve environment = .ok (.apiKey text) := by
  simp only [resolve, hapiKey, hcertificate, hkey, Option.isSome_none, Bool.false_eq_true, if_false]

theorem resolve_of_given (hapiKey : environment.apiKey = none)
    (hcertificate : Given environment.certificate certificate)
    (hkey : Given environment.privateKey key) :
    resolve environment = .ok (.files certificate key) := by
  simp only [resolve, hapiKey, required_of_given hcertificate, required_of_given hkey]
  rfl

theorem Refused.resolve (h : Refused environment error) :
    resolve environment = .error error := by
  cases h with
  | certificateConflict hapiKey hcertificate =>
    simp only [Credentials.resolve, hapiKey, hcertificate, Option.isSome_some, if_true]
  | keyConflict hapiKey hcertificate hkey =>
    simp only [Credentials.resolve, hapiKey, hcertificate, hkey, Option.isSome_none,
      Option.isSome_some, Bool.false_eq_true, if_false, if_true]
  | certificate hapiKey hlacking =>
    simp only [Credentials.resolve, hapiKey, required_of_lacking hlacking]
    rfl
  | key hapiKey hcertificate hlacking =>
    simp only [Credentials.resolve, hapiKey, required_of_given hcertificate,
      required_of_lacking hlacking]
    rfl

/-- What an environment names: an API key alone, two files alone, or nothing that is accepted. -/
inductive Outcome (environment : Environment) : Except Error Credentials → Prop where
  | apiKey {text : String} (hapiKey : environment.apiKey = some text)
      (hcertificate : environment.certificate = none) (hkey : environment.privateKey = none) :
      Outcome environment (.ok (.apiKey text))
  | files {certificate key : String} (hapiKey : environment.apiKey = none)
      (hcertificate : Given environment.certificate certificate)
      (hkey : Given environment.privateKey key) : Outcome environment (.ok (.files certificate key))
  | refused {error : Error} (h : Refused environment error) : Outcome environment (.error error)

theorem Outcome.resolve_eq {outcome : Except Error Credentials} (h : Outcome environment outcome) :
    resolve environment = outcome := by
  cases h with
  | apiKey hapiKey hcertificate hkey => exact resolve_of_apiKey hapiKey hcertificate hkey
  | files hapiKey hcertificate hkey => exact resolve_of_given hapiKey hcertificate hkey
  | refused h => exact h.resolve

/-- Every environment has an outcome. -/
theorem exists_outcome (environment : Environment) : ∃ outcome, Outcome environment outcome := by
  cases hapiKey : environment.apiKey with
  | some text =>
    cases hcertificate : environment.certificate with
    | some path => exact ⟨_, .refused (.certificateConflict hapiKey hcertificate)⟩
    | none =>
      cases hkey : environment.privateKey with
      | some path => exact ⟨_, .refused (.keyConflict hapiKey hcertificate hkey)⟩
      | none => exact ⟨_, .apiKey hapiKey hcertificate hkey⟩
  | none =>
    rcases given_or_lacking environment.certificate .certificate "no TLS client certificate" with
      ⟨path, hcertificate⟩ | ⟨error, hlacking⟩
    · rcases given_or_lacking environment.privateKey .privateKey "no TLS private key" with
        ⟨other, hkey⟩ | ⟨error, hlacking⟩
      · exact ⟨_, .files hapiKey hcertificate hkey⟩
      · exact ⟨_, .refused (.key hapiKey hcertificate hlacking)⟩
    · exact ⟨_, .refused (.certificate hapiKey hlacking)⟩

theorem outcome_resolve (environment : Environment) :
    Outcome environment (resolve environment) := by
  obtain ⟨outcome, h⟩ := exists_outcome environment
  exact h.resolve_eq ▸ h

/-- `resolve` returns an API key exactly if one is set, blank or not, and no file is set; it returns
two files exactly if no API key is set and both files are set and not blank. The values are returned
as they are. For all other environments the error is the first one of a fixed order. The variables
of the server and of the enclave have no influence. -/
theorem resolve_chooses (environment : Environment) :
    (∀ text, resolve environment = .ok (.apiKey text) ↔
      environment.apiKey = some text ∧ environment.certificate = none ∧
        environment.privateKey = none) ∧
    (∀ certificate key, resolve environment = .ok (.files certificate key) ↔
      environment.apiKey = none ∧ Given environment.certificate certificate ∧
        Given environment.privateKey key) ∧
    (∀ error, resolve environment = .error error ↔ Refused environment error) ∧
    ∀ server enclave,
      resolve { environment with server := server, enclave := enclave } = resolve environment := by
  have houtcome := outcome_resolve environment
  refine ⟨fun text => ⟨fun h => ?_, fun ⟨hapiKey, hcertificate, hkey⟩ =>
      resolve_of_apiKey hapiKey hcertificate hkey⟩,
    fun certificate key => ⟨fun h => ?_, fun ⟨hapiKey, hcertificate, hkey⟩ =>
      resolve_of_given hapiKey hcertificate hkey⟩,
    fun error => ⟨fun h => ?_, Refused.resolve⟩, fun _ _ => rfl⟩
  · rw [h] at houtcome
    obtain ⟨hapiKey, hcertificate, hkey⟩ := houtcome
    exact ⟨hapiKey, hcertificate, hkey⟩
  · rw [h] at houtcome
    cases houtcome with
    | files hapiKey hcertificate hkey => exact ⟨hapiKey, hcertificate, hkey⟩
  · rw [h] at houtcome
    cases houtcome with
    | refused hrefused => exact hrefused

/-- A zero-width space is no white space, so it names a file. -/
example : resolve ⟨none, none, some "\u200b", some "\u3000", none⟩ =
    .error (.blank .privateKey "no TLS private key") := by
  decide +kernel

end Resolve

end ClientIdentity.Credentials
