import ClientIdentity.CommandLine.Execution
import ClientIdentity.Proofs.CommandLine.Verbose
import ClientIdentity.Proofs.KeyPair
import ClientIdentity.Proofs.Run
import Mathlib.Data.List.ReduceOption
import Mathlib.Data.List.TakeDrop

namespace ClientIdentity

namespace Event

/-- The first event that is a question is the first question of the events. -/
theorem head?_dropWhile (events : List Event) :
    (events.dropWhile (·.question?.isNone)).head?.bind question? =
      (events.filterMap question?).head? := by
  induction events with
  | nil => rfl
  | cons event events ih =>
    cases hquestion : event.question? with
    | none => simpa [hquestion] using ih
    | some question => simp [hquestion]

/-- Whether an event is shown when the log is not verbose. -/
def isShown : Event → Bool
  | .logged line => Level.warn.rank ≤ line.level.rank
  | .asked .. => true

end Event

namespace CommandLine

/-- The five variables of a client, each looked up once; bytes that are not UTF-8 are replaced. -/
def snapshot (lookup : String → Option Bytes) : Environment where
  server := (lookup "KES_SERVER").map Utf8.lossy
  apiKey := (lookup "KES_API_KEY").map Utf8.lossy
  certificate := (lookup "KES_CLIENT_CERT").map Utf8.lossy
  privateKey := (lookup "KES_CLIENT_KEY").map Utf8.lossy
  enclave := (lookup "KES_ENCLAVE").map Utf8.lossy

/-- The outcome of making a client from the looked-up variables, unless a signal ends the program while
it waits for a secret. -/
def Setting.client? (setting : Setting) (enclave : Option String) (insecure : Bool) :
    Option (Except Error Client) :=
  let run := Client.ofEnvironment
    { files := setting.files
      roots := ⟨setting.lookup "SSL_CERT_FILE", setting.lookup "SSL_CERT_DIR"⟩
      reader := setting.terminal.reader
      now := setting.now }
    (snapshot setting.lookup) enclave insecure
  if setting.terminal.waits && setting.terminal.interrupts && !run.questions.isEmpty then none
  else some run.outcome

section Interruption

variable {setting : Setting} {arguments : List Bytes} {enclave : Option String}
  {insecure verbose : Bool}

/-- The run pauses at the first question of making the client, if the terminal is one to wait at. -/
theorem pause?_eq (hparse : parse arguments = .ok ⟨.showIdentity enclave insecure, verbose⟩) :
    pause? setting arguments =
      if setting.terminal.waits then
        ((clientRun setting enclave insecure).questions.head?).map fun question =>
          Log.showAll setting.stamp (Request.level ⟨.showIdentity enclave insecure, verbose⟩)
            ((clientRun setting enclave insecure).events.takeWhile (·.question?.isNone)) ++ question
      else none := by
  simp only [pause?, hparse, List.span_eq_takeWhile_dropWhile, Event.head?_dropWhile, Run.questions]

/-- A run that asks no question is not interrupted. -/
theorem run_eq_complete
    (h : ∀ enclave insecure verbose, parse arguments = .ok ⟨.showIdentity enclave insecure, verbose⟩ →
      (clientRun setting enclave insecure).questions = []) :
    run setting arguments = complete setting arguments := by
  have hpause : pause? setting arguments = none := by
    cases hparse : parse arguments with
    | error halt => simp [pause?, hparse]
    | ok request =>
      obtain ⟨⟨enclave, insecure⟩ | _, verbose⟩ := request
      · rw [pause?_eq hparse, h _ _ _ hparse]
        split <;> rfl
      · simp [pause?, hparse]
  rw [run, hpause]

/-- `client?` has no outcome exactly if the client asks a question and a signal from the terminal
ends the run while it waits. -/
theorem client?_eq : setting.client? enclave insecure =
    if setting.terminal.waits && setting.terminal.interrupts &&
      !(clientRun setting enclave insecure).questions.isEmpty then none
    else some (clientRun setting enclave insecure).outcome := rfl

variable (hparse : parse arguments = .ok ⟨.showIdentity enclave insecure, verbose⟩)

include hparse

/-- A run that is not interrupted returns what `execute` does. -/
theorem run_of_client?_eq_some {outcome : Except Error Client}
    (h : setting.client? enclave insecure = some outcome) :
    run setting arguments = Request.execute setting ⟨.showIdentity enclave insecure, verbose⟩ ∧
      (clientRun setting enclave insecure).outcome = outcome := by
  rw [client?_eq] at h
  split_ifs at h with hinterrupted
  refine ⟨?_, Option.some.inj h⟩
  have hcomplete : complete setting arguments =
      Request.execute setting ⟨.showIdentity enclave insecure, verbose⟩ := by
    rw [complete, hparse]
  rw [run, pause?_eq hparse, hcomplete]
  cases hasked : (clientRun setting enclave insecure).questions with
  | nil => simp
  | cons question more =>
    rw [hasked] at hinterrupted
    cases hwaits : setting.terminal.waits with
    | false => simp
    | true =>
      have hsignal : setting.terminal.interrupts = false := by simpa [hwaits] using hinterrupted
      simp [hsignal]

/-- A run that is interrupted has no exit code and shows the log up to the question, and the
question. -/
theorem run_of_client?_eq_none (h : setting.client? enclave insecure = none) :
    ∃ question, (clientRun setting enclave insecure).questions.head? = some question ∧
      run setting arguments = ⟨none, "",
        Log.showAll setting.stamp (Request.level ⟨.showIdentity enclave insecure, verbose⟩)
          ((clientRun setting enclave insecure).events.takeWhile (·.question?.isNone)) ++
            question⟩ := by
  rw [client?_eq] at h
  split_ifs at h with hinterrupted
  simp only [Bool.and_eq_true, Bool.not_eq_true', List.isEmpty_eq_false_iff] at hinterrupted
  obtain ⟨⟨hwaits, hsignal⟩, hasked⟩ := hinterrupted
  obtain ⟨question, more, hasked⟩ := List.exists_cons_of_ne_nil hasked
  refine ⟨question, by rw [hasked, List.head?_cons], ?_⟩
  rw [run, pause?_eq hparse, hasked, hwaits, hsignal]
  rfl

end Interruption

section Telling

variable {setting : Setting} {arguments : List Bytes} {enclave : Option String}
  {insecure verbose : Bool} {client : Client}

/-- The lines about a client: the server line with the value of `KES_SERVER`, or the default if that is
unset; an enclave line with the first of the given enclave and `KES_ENCLAVE` that is not empty, if there
is one; and the identity line with the digest in hexadecimal digits. -/
def identityText (lookup : String → Option Bytes) (given : Option String) (identity : Identity) :
    String :=
  "Server     " ++ ((lookup "KES_SERVER").map Utf8.lossy).getD "https://127.0.0.1:7373" ++ "\n" ++
    (match [given, (lookup "KES_ENCLAVE").map Utf8.lossy].reduceOption.find? (!·.isEmpty) with
      | some name => "Enclave    " ++ name ++ "\n"
      | none => "") ++
    "Identity   " ++ Hex.encode identity.digest ++ "\n"

theorem enclaveFor_eq (environment : Environment) (given : Option String) :
    environment.enclaveFor given =
      [given, environment.enclave].reduceOption.find? (!·.isEmpty) := by
  rw [Environment.enclaveFor]
  generalize environment.enclave = other
  cases given with
  | none => cases other <;> simp [Option.filter]
  | some name =>
    cases hempty : name.isEmpty <;> cases other <;> simp_all [Option.filter]

theorem endpoint_eq {environment : Environment} {endpoint : String}
    (h : environment.endpoint = .ok endpoint) :
    environment.server.getD Environment.defaultServer = endpoint := by
  rw [Environment.endpoint] at h
  cases hserver : environment.server with
  | none =>
    rw [hserver] at h
    exact Except.ok.inj h
  | some text =>
    simp only [hserver] at h
    split_ifs at h
    exact Except.ok.inj h

-- The two texts are opened by their definitions: their equation lemmas take seconds to make.

/-- The lines about a client depend only on its endpoint, its enclave and its identity. -/
theorem clientLines_congr {other : Client} (hendpoint : client.endpoint = other.endpoint)
    (henclave : client.enclave = other.enclave) (hidentity : client.identity = other.identity) :
    clientLines client = clientLines other := by
  delta clientLines
  rw [hendpoint, henclave, hidentity]

/-- The lines about a client that has been made are those for the looked-up server and enclave and
the identity of the client. -/
theorem clientLines_eq (h : (clientRun setting enclave insecure).outcome = .ok client) :
    ∃ identity, client.identity = some identity ∧
      clientLines client = identityText setting.lookup enclave identity := by
  simp only [clientRun, Client.ofEnvironment, Run.outcome_bind_eq_ok_iff, Run.outcome_ofExcept] at h
  obtain ⟨credentials, -, endpoint, hendpoint, pair, hpair, config, -, hclient⟩ := h
  obtain ⟨leaf, rest, certificate, layout, -, -, -, -, hidentity⟩ :=
    KeyPair.exists_layout_of_checked (KeyPair.Obtained.found hpair).checked
  have hserver : ((setting.lookup "KES_SERVER").map Utf8.lossy).getD "https://127.0.0.1:7373" =
      endpoint := endpoint_eq hendpoint
  have henclave : setting.environment.enclaveFor enclave =
      [enclave, (setting.lookup "KES_ENCLAVE").map Utf8.lossy].reduceOption.find? (!·.isEmpty) :=
    enclaveFor_eq setting.environment enclave
  cases hclient
  refine ⟨_, hidentity, ?_⟩
  delta clientLines identityText
  rewrite [hserver, henclave, hidentity]
  rfl

/-- What a run of the program leaves behind, by the outcome of making the client. -/
structure Tells (setting : Setting) (enclave : Option String) (insecure : Bool)
    (transcript : Transcript) : Prop where
  /-- The exit code is 0 exactly if there is a client. -/
  success_iff : transcript.exitCode = some 0 ↔
    ∃ client, setting.client? enclave insecure = some (.ok client)
  output : ∀ client, setting.client? enclave insecure = some (.ok client) →
    ∃ identity, client.identity = some identity ∧
      transcript.output = identityText setting.lookup enclave identity
  failure : ∀ error, setting.client? enclave insecure = some (.error error) →
    transcript.exitCode = some 1 ∧ transcript.output = ""
  interrupted : setting.client? enclave insecure = none →
    transcript.exitCode = none ∧ transcript.output = ""

theorem tells_run (hparse : parse arguments = .ok ⟨.showIdentity enclave insecure, verbose⟩) :
    Tells setting enclave insecure (run setting arguments) := by
  cases hclient : setting.client? enclave insecure with
  | none =>
    obtain ⟨question, -, hrun⟩ := run_of_client?_eq_none hparse hclient
    rw [hrun]
    constructor <;> simp [hclient]
  | some outcome =>
    obtain ⟨hrun, houtcome⟩ := run_of_client?_eq_some hparse hclient
    rw [hrun]
    cases outcome with
    | error error => constructor <;> simp [hclient, Request.execute, houtcome]
    | ok client =>
      have hlines := clientLines_eq houtcome
      constructor <;> simp [hclient, Request.execute, houtcome, hlines]

end Telling

section Verbosity

/-- The exit code and the output of two transcripts are the same, and the errors of the first are
those of the second without some log lines. -/
structure Quieter (stamp : String) (quiet loud : Transcript) : Prop where
  exitCode : quiet.exitCode = loud.exitCode
  output : quiet.output = loud.output
  errors : ∃ events tail, loud.errors = Log.showAll stamp .debug events ++ tail ∧
    quiet.errors = Log.showAll stamp .debug (events.filter Event.isShown) ++ tail

/-- The quiet log is the verbose log without the lines below the level of warnings. -/
theorem showAll_warn (stamp : String) (events : List Event) :
    Log.showAll stamp .warn events = Log.showAll stamp .debug (events.filter Event.isShown) := by
  induction events with
  | nil => rfl
  | cons event events ih =>
    simp only [Log.showAll, List.map_cons, String.join_cons] at ih ⊢
    rw [ih, List.filter_cons]
    cases event with
    | logged line =>
      have hdebug : Level.debug.rank ≤ line.level.rank := Nat.zero_le _
      by_cases hshown : Level.warn.rank ≤ line.level.rank
      · simp [Event.isShown, Log.describe, hshown, hdebug]
      · simp [Event.isShown, Log.describe, hshown]
    | asked question shown => simp [Event.isShown, Log.describe]

variable {setting : Setting} {quiet loud : List Bytes} {enclave : Option String} {insecure : Bool}

/-- The transcripts of a quiet and a verbose command line for the same task differ only in lines of
the log. -/
theorem quieter_of_parse (hquiet : parse quiet = .ok ⟨.showIdentity enclave insecure, false⟩)
    (hloud : parse loud = .ok ⟨.showIdentity enclave insecure, true⟩) :
    Quieter setting.stamp (run setting quiet) (run setting loud) := by
  cases hclient : setting.client? enclave insecure with
  | none =>
    obtain ⟨question, hquestion, hrun⟩ := run_of_client?_eq_none hquiet hclient
    obtain ⟨other, hother, hrunLoud⟩ := run_of_client?_eq_none hloud hclient
    obtain rfl := Option.some.inj (hquestion.symm.trans hother)
    rw [hrun, hrunLoud]
    exact ⟨rfl, rfl, _, _, rfl, by rw [← showAll_warn]; rfl⟩
  | some outcome =>
    obtain ⟨hrun, houtcome⟩ := run_of_client?_eq_some hquiet hclient
    obtain ⟨hrunLoud, -⟩ := run_of_client?_eq_some hloud hclient
    rw [hrun, hrunLoud]
    cases outcome with
    | error error =>
      simp only [Request.execute, houtcome]
      exact ⟨rfl, rfl, _, _, rfl, by rw [← showAll_warn]; rfl⟩
    | ok client =>
      simp only [Request.execute, houtcome]
      exact ⟨rfl, rfl, _, "", (String.append_empty).symm, by
        rw [← showAll_warn, String.append_empty]; rfl⟩

end Verbosity

/-- For every accepted command line of the identity command, the exit code is 0 exactly if a client is
made from the looked-up variables, and the output is then exactly the lines about it; on failure the exit
code is 1 and the output is empty. Adding the option for a verbose log changes neither, and only adds
lines to the log. -/
theorem run_showIdentity (setting : Setting) {arguments : List Bytes} {enclave : Option String}
    {insecure verbose : Bool}
    (hparse : parse arguments = .ok ⟨.showIdentity enclave insecure, verbose⟩) :
    Tells setting enclave insecure (run setting arguments) ∧
      (verbose = false →
        (∀ arg ∈ verboseArguments, Addable arguments ⟨.showIdentity enclave insecure, false⟩ arg) ∧
        ∀ loud, parse loud = .ok ⟨.showIdentity enclave insecure, true⟩ →
          Quieter setting.stamp (run setting arguments) (run setting loud)) := by
  refine ⟨tells_run hparse, ?_⟩
  rintro rfl
  exact ⟨fun arg harg => addable_verbose hparse rfl harg, fun loud => quieter_of_parse hparse⟩

namespace Sample

/-- A setting without files, with these variables. -/
def setting (values : List (String × String)) (terminal : Terminal) (now : Nat) : Setting where
  lookup name := (values.lookup name).map Utf8.encode
  files := .ofReadings []
  terminal
  freshKey := ⟨List.replicate 32 1, rfl⟩
  now
  stamp := "2026-10-15T12:00:00.000000Z"

def attended : Terminal := ⟨true, true, [], []⟩

def unattended : Terminal := ⟨false, false, [], []⟩

/-- An empty enclave behind the name of the command, and no check of the server. -/
def arguments : List Bytes := ["identity", "-e", "", "-k"].map Utf8.encode

/-- The setting of an API key, a server and an enclave. -/
def keySetting : Setting :=
  setting [("KES_API_KEY", "kes:v1:AAAAAAAAAAAAAAAAAAAAAAAAAAAAAAAAAAAAAAAAAAAA"),
    ("KES_SERVER", "https://kes:7373"), ("KES_ENCLAVE", "blue")] attended 0

theorem parse_arguments : parse arguments = .ok ⟨.showIdentity (some "") true, false⟩ := by
  decide +kernel

/-- The three lines about the key. -/
def output : String :=
  "Server     https://kes:7373\nEnclave    blue\n" ++
    "Identity   339e2ff917630507b6a423b5ce084e285d1fa65d93b3e27a6195d3bbebc9ae23\n"

def warning : String :=
  "2026-10-15T12:00:00.000000Z  WARN kes_auth::client: server certificate verification is disabled\n"

/-- The lines that only a verbose log has. -/
def progress : String :=
  "2026-10-15T12:00:00.000000Z  INFO kes_auth::credentials: using API key with identity " ++
    "339e2ff917630507b6a423b5ce084e285d1fa65d93b3e27a6195d3bbebc9ae23\n" ++
    "2026-10-15T12:00:00.000000Z DEBUG kes_auth::api_key: generated client certificate for identity " ++
    "339e2ff917630507b6a423b5ce084e285d1fa65d93b3e27a6195d3bbebc9ae23\n"

theorem run_arguments :
    run keySetting arguments = ⟨some 0, output, warning⟩ ∧
      run keySetting (arguments ++ [Utf8.encode "-v"]) = ⟨some 0, output, progress ++ warning⟩ := by
  decide +kernel

end Sample

/-- With an API key, a server and an enclave in the environment, an empty enclave given and the check of
the server turned off, the run succeeds with three lines, and the verbose log has two lines more. -/
theorem run_showIdentity_enclave :
    parse Sample.arguments = .ok ⟨.showIdentity (some "") true, false⟩ ∧
    Tells Sample.keySetting (some "") true (run Sample.keySetting Sample.arguments) ∧
    run Sample.keySetting Sample.arguments = ⟨some 0, Sample.output, Sample.warning⟩ ∧
    parse (Sample.arguments ++ [Utf8.encode "-v"]) = .ok ⟨.showIdentity (some "") true, true⟩ ∧
    Quieter Sample.keySetting.stamp (run Sample.keySetting Sample.arguments)
      (run Sample.keySetting (Sample.arguments ++ [Utf8.encode "-v"])) ∧
    run Sample.keySetting (Sample.arguments ++ [Utf8.encode "-v"]) =
      ⟨some 0, Sample.output, Sample.progress ++ Sample.warning⟩ := by
  obtain ⟨htells, hverbose⟩ := run_showIdentity Sample.keySetting Sample.parse_arguments
  obtain ⟨hadd, hquieter⟩ := hverbose rfl
  have hloud := (hadd (Utf8.encode "-v") (List.mem_cons_self ..)).behind Sample.arguments [] _
    (List.append_nil _).symm (by decide +kernel) Sample.parse_arguments
  exact ⟨Sample.parse_arguments, htells, Sample.run_arguments.1, hloud, hquieter _ hloud,
    Sample.run_arguments.2⟩

end CommandLine

end ClientIdentity
