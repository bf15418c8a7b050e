import ClientIdentity.Proofs.Client
import ClientIdentity.Proofs.CommandLine.Transcript
import ClientIdentity.Proofs.Terminal

namespace ClientIdentity

namespace Client

variable {around : Surroundings} {environment : Environment} {enclave : Option String}
  {insecure : Bool} {block : Pem.Block}

/-- The environment names a server, certificates that can be read, and a key file whose selected
block is encrypted and is this one. -/
def LeadsTo (files : FileSystem) (environment : Environment) (block : Pem.Block) : Prop :=
  ∃ certificate key endpoint chain,
    Credentials.resolve environment = .ok (.files certificate key) ∧
    environment.endpoint = .ok endpoint ∧
    (KeyFile.readCertificates files (Utf8.encode certificate) = .ok chain ∧ chain ≠ []) ∧
    KeyFile.Selected files key block ∧ block.isEncrypted = true

/-- `ofEnvironment` asks for one password and depends on it only through the outcome of unlocking
the block. -/
theorem consults_ofEnvironment (h : LeadsTo around.files environment block) :
    Run.Consults (fun reader => ofEnvironment { around with reader } environment enclave insecure)
      KeyFile.question (KeyFile.tried block) := by
  obtain ⟨certificate, key, endpoint, chain, hresolve, hserver, hchain, hselected, hlocked⟩ := h
  have hcertificates := KeyFile.outcome_loadCertificates_eq_ok_iff.mpr hchain
  simp only [ofEnvironment, hresolve, hserver]
  refine (Run.yields_ofExcept rfl).consults_bind ((Run.yields_ofExcept rfl).consults_bind ?_)
  refine (KeyFile.consults_loadKeyPair hcertificates hselected hlocked).bind fun pair => ?_
  exact Run.questions_bind_eq_nil (questions_make _ _ _ pair) fun config => rfl

end Client

namespace Terminal

/-- The decryption of a block under the typed line; none if the line is not UTF-8. -/
def attempt? (terminal : Terminal) (block : Pem.Block) :
    Option (Except Pem.Encryption.Fault Bytes) :=
  (Utf8.decode? terminal.line).map fun _ => Pem.Encryption.decrypt block terminal.line

/-- `heed` loses no bytes unless the interrupt or the quit byte is among them. -/
theorem isSome_heed {typed : Bytes} (hinterrupt : 0x03 ∉ typed) (hquit : 0x1C ∉ typed)
    (kept : Bytes) (literally : Bool) : (heed kept literally typed).isSome := by
  induction typed generalizing kept literally with
  | nil => rfl
  | cons b rest ih =>
    simp only [List.mem_cons, not_or] at hinterrupt hquit
    have hrest := ih hinterrupt.2 hquit.2
    cases literally with
    | true => exact hrest (b :: kept) false
    | false =>
      have hb : Stroke.ofByte b ≠ .interrupt := by
        have hne : ¬ (b = 0x03 ∨ b = 0x1C) := by
          rintro (rfl | rfl)
          · exact hinterrupt.1 rfl
          · exact hquit.1 rfl
        unfold Stroke.ofByte
        split_ifs <;> simp
      rw [heed]
      split
      · exact absurd ‹_› hb
      · exact hrest [] false
      · exact hrest (b :: kept) true
      · exact hrest (b :: kept) false

theorem interrupts_eq_false {terminal : Terminal} (hinterrupt : 0x03 ∉ terminal.typed)
    (hquit : 0x1C ∉ terminal.typed) : terminal.interrupts = false := by
  simp [interrupts, typedLine?, isSome_heed hinterrupt hquit]

/-- A secret is the text of the line, and its bytes are those of the line. -/
theorem map_secret (terminal : Terminal) (block : Pem.Block) :
    terminal.secret.map (KeyFile.tried block) =
      if terminal.readable then (terminal.attempt? block).elim (.error .notText) .ok
      else .error .noDevice := by
  unfold secret attempt?
  split_ifs with hreadable
  · cases htext : Utf8.decode? terminal.line with
    | none => rfl
    | some password =>
      have hline := Utf8.decode?_eq_some_iff.mp htext
      simp [Except.map, KeyFile.tried, hline]
  · rfl

end Terminal

namespace CommandLine

/-- The setting with another terminal. -/
def Setting.withTerminal (setting : Setting) (terminal : Terminal) : Setting :=
  { setting with terminal }

section Telling

/-- The standard error of a run behind its log: the report of an error, or nothing. -/
def closing : Except Error Client → String
  | .ok _ => ""
  | .error error => error.report

/-- The transcript of `showIdentity` with `seen` on standard error, by the outcome of making the
client. -/
def told (seen : String) : Except Error Client → Transcript
  | .ok client => ⟨some 0, clientLines client, seen⟩
  | .error error => ⟨some 1, "", seen ++ error.report⟩

theorem errors_told (seen : String) (outcome : Except Error Client) :
    (told seen outcome).errors = seen ++ closing outcome := by
  cases outcome with
  | error error => rfl
  | ok client => exact String.append_empty.symm

theorem execute_eq (setting : Setting) (enclave : Option String) (insecure verbose : Bool) :
    Request.execute setting ⟨.showIdentity enclave insecure, verbose⟩ =
      told (Log.showAll setting.stamp (Request.level ⟨.showIdentity enclave insecure, verbose⟩)
        (clientRun setting enclave insecure).events) (clientRun setting enclave insecure).outcome := by
  simp only [Request.execute]
  cases (clientRun setting enclave insecure).outcome <;> rfl

/-- Log lines as they are shown from a level on. -/
def shownLines (stamp : String) (least : Level) (records : List Record) : String :=
  Log.showAll stamp least (records.map .logged)

variable {stamp : String} {least : Level}

theorem showAll_append (first second : List Event) :
    Log.showAll stamp least (first ++ second) =
      Log.showAll stamp least first ++ Log.showAll stamp least second := by
  simp [Log.showAll, String.join_append]

/-- A line of the log does not begin with a newline, unless the time stamp does. -/
theorem head?_writeLine (hstamp : stamp.toList.head? ≠ some '\n') (line : Record) (rest : String) :
    (Log.writeLine stamp line ++ rest).toList.head? ≠ some '\n' := by
  cases hhead : stamp.toList.head? <;> simp_all [Log.writeLine]

/-- What is shown behind the newline of the question does not begin with another newline. -/
theorem head?_behind (hstamp : stamp.toList.head? ≠ some '\n') (records : List Record)
    (outcome : Except Error Client) :
    (shownLines stamp least records ++ closing outcome).toList.head? ≠ some '\n' := by
  induction records with
  | nil =>
    cases outcome with
    | ok client => simp [shownLines, Log.showAll, closing]
    | error error => simp [shownLines, Log.showAll, closing, Error.report]
  | cons line records ih =>
    simp only [shownLines, Log.showAll, List.map_cons, String.join_cons, String.append_assoc] at ih ⊢
    simp only [Log.describe]
    split_ifs with hshown
    · exact head?_writeLine hstamp line _
    · rwa [String.empty_append]

end Telling

section Entering

/-- How the program asks for the password of a block, for every terminal. What it shows in front of the
question, `seen`, is the same for all of them. -/
structure EntersPassword (setting : Setting) (arguments : List Bytes) (least : Level)
    (block : Pem.Block) (seen : String) : Prop where
  /-- There are only lines of the log in front of the question. -/
  logged : ∃ before : List Record, seen = shownLines setting.stamp least before
  /-- Without a terminal nothing is asked or read, and the program fails. -/
  unattended : ∀ terminal : Terminal, terminal.interactive = false →
    run (setting.withTerminal terminal) arguments = told seen (.error .notInteractive)
  /-- At a terminal the question is shown, directly followed by one newline, whether or not a line can
  be read. Behind it there are only lines of the log, and the report of an error if there is one. -/
  prompted : ∀ terminal : Terminal, terminal.interactive = true →
    (∀ fault ∈ terminal.faults, fault = none) → terminal.interrupts = false →
      ∃ (after : List Record) (outcome : Except Error Client),
        run (setting.withTerminal terminal) arguments =
          told (seen ++ (KeyFile.question ++ "\n") ++ shownLines setting.stamp least after) outcome
  /-- No second newline stands directly behind that one, unless the time is shown as one. -/
  single : setting.stamp.toList.head? ≠ some '\n' →
    ∀ terminal : Terminal, terminal.interactive = true →
      (∀ fault ∈ terminal.faults, fault = none) → terminal.interrupts = false →
        ∀ rest, (run (setting.withTerminal terminal) arguments).errors =
          seen ++ (KeyFile.question ++ "\n") ++ rest → rest.toList.head? ≠ some '\n'
  /-- The program fails if no text can be read. -/
  unread : ∀ (terminal : Terminal) (fault : SystemFault), terminal.interactive = true →
    (∀ fault ∈ terminal.faults, fault = none) → terminal.interrupts = false →
      terminal.secret = .error fault →
        run (setting.withTerminal terminal) arguments =
          told (seen ++ (KeyFile.question ++ "\n")) (.error (.prompt fault))
  /-- Where the question cannot be written, the program fails, whatever is typed. -/
  unwritten : ∀ (terminal : Terminal) (fault : SystemFault), terminal.interactive = true →
    terminal.faults.head? = some (some fault) →
      run (setting.withTerminal terminal) arguments = told seen (.error (.prompt fault))
  /-- Where the question can be written and later writes fail, at most one newline follows it. -/
  atMostOne : ∀ terminal : Terminal, terminal.waits = true → terminal.interrupts = false →
    ∃ ending, (ending = "" ∨ ending = "\n") ∧
      ∃ (after : List Record) (outcome : Except Error Client),
        run (setting.withTerminal terminal) arguments =
          told (seen ++ (KeyFile.question ++ ending) ++ shownLines setting.stamp least after) outcome
  /-- The run depends on the typed bytes only through what they make of the block, and not even
  through that if the terminal cannot be opened. -/
  alike : ∀ first second : Terminal, first.interactive = true → second.interactive = true →
    first.faults = second.faults → first.interrupts = false → second.interrupts = false →
      first.readable = second.readable →
        (first.readable = true → first.attempt? block = second.attempt? block) →
          run (setting.withTerminal first) arguments = run (setting.withTerminal second) arguments
  /-- A signal ends the program directly behind the question. -/
  interrupted : ∀ terminal : Terminal, terminal.waits = true → terminal.interrupts = true →
    run (setting.withTerminal terminal) arguments = ⟨none, "", seen ++ KeyFile.question⟩

variable {setting : Setting} {arguments : List Bytes} {request : Request} {enclave : Option String}
  {insecure : Bool} {block : Pem.Block} {terminal : Terminal}

/-- A run that no signal ends shows the log and the outcome of making the client. -/
theorem run_eq_told (hparse : parse arguments = .ok request)
    (htask : request.task = .showIdentity enclave insecure)
    (h : (setting.terminal.waits && setting.terminal.interrupts) = false) :
    run setting arguments =
      told (Log.showAll setting.stamp request.level (clientRun setting enclave insecure).events)
        (clientRun setting enclave insecure).outcome := by
  obtain ⟨task, verbose⟩ := request
  obtain rfl := htask
  have hclient : setting.client? enclave insecure =
      some (clientRun setting enclave insecure).outcome := by
    rw [client?_eq, h]
    rfl
  rw [(run_of_client?_eq_some hparse hclient).1, execute_eq]

/-- A run that a signal ends shows the log up to the first question and the question. -/
theorem run_of_question {before : List Record} {question shown : String} {rest : List Event}
    (hparse : parse arguments = .ok request)
    (htask : request.task = .showIdentity enclave insecure)
    (hwaits : setting.terminal.waits = true)
    (hinterrupts : setting.terminal.interrupts = true)
    (hevents : (clientRun setting enclave insecure).events =
      before.map .logged ++ .asked question shown :: rest) :
    run setting arguments =
      ⟨none, "", shownLines setting.stamp request.level before ++ question⟩ := by
  obtain ⟨task, verbose⟩ := request
  obtain rfl := htask
  have hlogged : ∀ event ∈ before.map Event.logged, event.question?.isNone = true := by
    intro event hevent
    obtain ⟨line, -, rfl⟩ := List.mem_map.mp hevent
    rfl
  have hfirst : (clientRun setting enclave insecure).events.takeWhile (·.question?.isNone) =
      before.map .logged := by
    rw [hevents, List.takeWhile_append_of_pos hlogged]
    exact List.append_nil _
  have hasked : (clientRun setting enclave insecure).questions.head? = some question := by
    rw [Run.questions, ← Event.head?_dropWhile, hevents, List.dropWhile_append_of_pos hlogged]
    rfl
  rw [run, pause?_eq hparse, hasked, hfirst, if_pos hwaits, Option.map_some]
  exact if_pos hinterrupts

section Answers

/-- Whatever terminal there is to ask at, the way to the client leads to the question for the password
of a block, and on from what the password makes of the block without another one. -/
structure Asks (setting : Setting) (enclave : Option String) (insecure : Bool) (block : Pem.Block)
    (before : List Record) (next : Except Pem.Encryption.Fault Bytes → Run Client) : Prop where
  silent : ∀ made, (next made).questions = []
  client : ∀ terminal : Terminal, clientRun (setting.withTerminal terminal) enclave insecure =
    Run.tell before >>= fun _ => Run.ask terminal.reader KeyFile.question >>=
      fun password => next (KeyFile.tried block password)

variable {before : List Record} {next : Except Pem.Encryption.Fault Bytes → Run Client}
  {shown password : String} {error : Error}

theorem exists_asks (hleads : Client.LeadsTo setting.files setting.environment block) :
    ∃ before next, Asks setting enclave insecure block before next := by
  have hconsults : Run.Consults
      (fun reader => Client.ofEnvironment { setting.surroundings with reader } setting.environment
        enclave insecure) KeyFile.question (KeyFile.tried block) :=
    Client.consults_ofEnvironment hleads
  obtain ⟨before, next, hsilent, hclient⟩ := hconsults
  exact ⟨before, next, hsilent, fun terminal => hclient terminal.reader⟩

variable (hparse : parse arguments = .ok request)
  (htask : request.task = .showIdentity enclave insecure)
  (hasks : Asks setting enclave insecure block before next)

include hparse htask hasks

/-- If the reader fails, the run shows the log, the question and the error of the reader. -/
theorem Asks.run_of_error (h : (terminal.waits && terminal.interrupts) = false)
    (hanswer : terminal.reader KeyFile.question = ⟨.error error, shown⟩) :
    run (setting.withTerminal terminal) arguments =
      told (shownLines setting.stamp request.level before ++ shown) (.error error) := by
  rw [run_eq_told hparse htask h, hasks.client, Run.tell_ask_of_error hanswer, showAll_append]
  simp [shownLines, Log.showAll, Log.describe, Setting.withTerminal]

/-- If the reader succeeds, the run shows the log and the question, and continues with the outcome
of unlocking the block with the password. -/
theorem Asks.run_of_ok (h : (terminal.waits && terminal.interrupts) = false)
    (hanswer : terminal.reader KeyFile.question = ⟨.ok password, shown⟩) :
    run (setting.withTerminal terminal) arguments =
      told (shownLines setting.stamp request.level before ++ shown ++
          Log.showAll setting.stamp request.level (next (KeyFile.tried block password)).events)
        (next (KeyFile.tried block password)).outcome := by
  rw [run_eq_told hparse htask h, hasks.client, Run.tell_ask_of_ok hanswer, showAll_append]
  simp [shownLines, Log.showAll, Log.describe, Setting.withTerminal, String.append_assoc]

theorem Asks.run_of_interrupts (hwaits : terminal.waits = true)
    (hinterrupts : terminal.interrupts = true) :
    run (setting.withTerminal terminal) arguments =
      ⟨none, "", shownLines setting.stamp request.level before ++ KeyFile.question⟩ := by
  have hevents : ∃ shown rest, (clientRun (setting.withTerminal terminal) enclave insecure).events =
      before.map .logged ++ .asked KeyFile.question shown :: rest := by
    rw [hasks.client]
    cases hanswer : terminal.reader KeyFile.question with
    | mk outcome shown =>
      cases outcome with
      | error error => exact ⟨_, _, congrArg Run.events (Run.tell_ask_of_error hanswer)⟩
      | ok password => exact ⟨_, _, congrArg Run.events (Run.tell_ask_of_ok hanswer)⟩
  obtain ⟨shown, rest, hevents⟩ := hevents
  exact run_of_question hparse htask hwaits hinterrupts hevents

/-- Whatever the reader returns, the run shows the log, the question, further lines of the log and
the report of the outcome. -/
theorem Asks.exists_run_eq (h : (terminal.waits && terminal.interrupts) = false) :
    ∃ (after : List Record) (outcome : Except Error Client),
      run (setting.withTerminal terminal) arguments =
        told (shownLines setting.stamp request.level before ++
          (terminal.reader KeyFile.question).shown ++
            shownLines setting.stamp request.level after) outcome := by
  cases hanswer : terminal.reader KeyFile.question with
  | mk outcome shown =>
    cases outcome with
    | error error =>
      refine ⟨[], .error error, ?_⟩
      rw [hasks.run_of_error hparse htask h hanswer]
      exact congrArg (told · _) String.append_empty.symm
    | ok password =>
      obtain ⟨after, hafter⟩ :=
        Run.exists_events_eq_map_logged (hasks.silent (KeyFile.tried block password))
      refine ⟨after, (next (KeyFile.tried block password)).outcome, ?_⟩
      rw [hasks.run_of_ok hparse htask h hanswer, hafter, shownLines, shownLines]

/-- Two runs are equal if the question is shown in the same way and unlocking the block has the same
outcome. -/
theorem Asks.run_eq_of_answers {other : Terminal}
    (h : (terminal.waits && terminal.interrupts) = false)
    (hother : (other.waits && other.interrupts) = false)
    (hanswers : (terminal.reader KeyFile.question).outcome.map (KeyFile.tried block) =
        (other.reader KeyFile.question).outcome.map (KeyFile.tried block) ∧
      (terminal.reader KeyFile.question).shown = (other.reader KeyFile.question).shown) :
    run (setting.withTerminal terminal) arguments = run (setting.withTerminal other) arguments := by
  obtain ⟨houtcome, hshown⟩ := hanswers
  cases hfirst : terminal.reader KeyFile.question with
  | mk outcome shown =>
    cases hsecond : other.reader KeyFile.question with
    | mk outcome' shown' =>
      rw [hfirst, hsecond] at houtcome hshown
      obtain rfl : shown = shown' := hshown
      cases outcome with
      | error error =>
        cases outcome' with
        | error error' =>
          obtain rfl : error = error' := Except.error.inj houtcome
          rw [hasks.run_of_error hparse htask h hfirst, hasks.run_of_error hparse htask hother hsecond]
        | ok password => cases houtcome
      | ok password =>
        cases outcome' with
        | error error => cases houtcome
        | ok password' =>
          have hmade : KeyFile.tried block password = KeyFile.tried block password' :=
            Except.ok.inj houtcome
          rw [hasks.run_of_ok hparse htask h hfirst, hasks.run_of_ok hparse htask hother hsecond,
            hmade]

end Answers

/-- Every run that reaches an encrypted key enters its password. Without a terminal it fails; at a
terminal whose writes succeed it shows the question once and exactly one newline behind it, on
success and on failure; and it depends on the typed bytes only through the outcome of unlocking the
key. If the question cannot be written the run fails and shows nothing of it, and a signal ends the
run behind the question. -/
theorem run_entersPassword (setting : Setting) (hparse : parse arguments = .ok request)
    (htask : request.task = .showIdentity enclave insecure)
    (hleads : Client.LeadsTo setting.files setting.environment block) :
    ∃ seen, EntersPassword setting arguments request.level block seen := by
  have hexists : ∃ before next, Asks setting enclave insecure block before next := exists_asks hleads
  obtain ⟨before, next, hasks⟩ := hexists
  have hprompted : ∀ terminal : Terminal, terminal.interactive = true →
      (∀ fault ∈ terminal.faults, fault = none) → terminal.interrupts = false →
        ∃ (after : List Record) (outcome : Except Error Client),
          run (setting.withTerminal terminal) arguments =
            told (shownLines setting.stamp request.level before ++ (KeyFile.question ++ "\n") ++
              shownLines setting.stamp request.level after) outcome := by
    intro terminal hinteractive hwritable hinterrupts
    have hshown : (terminal.reader KeyFile.question).shown = KeyFile.question ++ "\n" := by
      rw [Terminal.reader_of_writable hinteractive hwritable]
    rw [← hshown]
    exact hasks.exists_run_eq hparse htask (by simp [hinterrupts])
  refine ⟨shownLines setting.stamp request.level before, ?_⟩
  constructor
  case logged => exact ⟨before, rfl⟩
  case unattended =>
    intro terminal hinteractive
    rw [hasks.run_of_error hparse htask (by simp [Terminal.waits, hinteractive])
      (Terminal.reader_of_not_interactive hinteractive _), String.append_empty]
  case prompted => exact hprompted
  case single =>
    intro hstamp terminal hinteractive hwritable hinterrupts rest hrest
    obtain ⟨after, outcome, hrun⟩ := hprompted terminal hinteractive hwritable hinterrupts
    rw [hrun, errors_told, String.append_assoc, String.append_right_inj] at hrest
    exact hrest ▸ head?_behind hstamp after outcome
  case unread =>
    intro terminal fault hinteractive hwritable hinterrupts hsecret
    have hanswer := Terminal.reader_of_writable hinteractive hwritable KeyFile.question
    rw [hsecret] at hanswer
    exact hasks.run_of_error hparse htask (by simp [hinterrupts]) hanswer
  case unwritten =>
    intro terminal fault hinteractive hfault
    rw [hasks.run_of_error hparse htask (by simp [Terminal.waits, hfault])
      (Terminal.reader_of_refused hinteractive hfault _), String.append_empty]
  case atMostOne =>
    intro terminal hwaits hinterrupts
    have hended : (terminal.waits && terminal.interrupts) = false := by simp [hinterrupts]
    have hrun := hasks.exists_run_eq hparse htask hended
    obtain hshown | hshown := Terminal.shown_reader hwaits KeyFile.question
    · refine ⟨"", .inl rfl, ?_⟩
      rwa [hshown, ← String.append_empty (s := KeyFile.question)] at hrun
    · refine ⟨"\n", .inr rfl, ?_⟩
      rwa [hshown] at hrun
  case alike =>
    intro first second hfirst hsecond hfaults hgoes hnot hreadable hattempt
    refine hasks.run_eq_of_answers hparse htask (by simp [hgoes]) (by simp [hnot]) ?_
    refine Terminal.reader_congr (hfirst.trans hsecond.symm) hfaults ?_ _
    rw [Terminal.map_secret, Terminal.map_secret, ← hreadable]
    split_ifs with hopened
    · rw [hattempt hopened]
    · rfl
  case interrupted => exact fun terminal => hasks.run_of_interrupts hparse htask

end Entering

namespace Sample

/-- The files of a pair whose key is encrypted. -/
def lockedPair : FileSystem :=
  .ofReadings [(Utf8.encode "client.crt", .ok (Utf8.encode
      "-----BEGIN CERTIFICATE-----\nQUJD\n-----END CERTIFICATE-----\n")),
    (Utf8.encode "client.key", .ok (Utf8.encode KeyFile.Sample.lockedText))]

/-- A setting in which the paths of a pair are set. -/
def paired (files : FileSystem) (terminal : Terminal) : Setting :=
  { setting [(Variable.certificate.name, "client.crt"), (Variable.privateKey.name, "client.key")]
      terminal 0 with files }

theorem environment_paired (files : FileSystem) (terminal : Terminal) :
    (paired files terminal).environment =
      ⟨none, none, some "client.crt", some "client.key", none⟩ := by
  simp [paired, setting, Setting.environment, Environment.ofProcess, Environment.ofLookup,
    Utf8.lossy_encode, List.lookup_cons, Variable.name]

theorem leadsTo_locked (terminal : Terminal) :
    Client.LeadsTo (paired lockedPair terminal).files (paired lockedPair terminal).environment
      KeyFile.Sample.locked := by
  have hchain : KeyFile.readCertificates lockedPair (Utf8.encode "client.crt") =
      .ok [[0x41, 0x42, 0x43]] := by decide
  have hselected : KeyFile.Selected lockedPair "client.key" KeyFile.Sample.locked := by
    obtain ⟨contents, hread, hfind⟩ := KeyFile.Sample.selected_locked
    refine ⟨contents, ?_, hfind⟩
    rw [← hread]
    decide
  rw [environment_paired]
  exact ⟨_, _, _, _, by decide, rfl, ⟨hchain, by decide⟩, hselected, by decide⟩

/-- Someone who types a letter and ends the line. -/
def typing (letter : UInt8) : Terminal := ⟨true, true, [letter, 0x0A], []⟩

/-- The option for an enclave behind the name of the command. -/
def enclaveArguments : List Bytes := ["identity", "-e", "green"].map Utf8.encode

theorem parse_enclaveArguments :
    parse enclaveArguments = .ok ⟨.showIdentity (some "green") false, false⟩ := by
  decide +kernel

def hangup : SystemFault := .other "Input/output error (os error 5)"

/-- Decryption of the sample block fails in the same way under every password. -/
theorem attempt?_locked {letter : UInt8} {text : String}
    (hline : (typing letter).line = Utf8.encode text) :
    (typing letter).attempt? KeyFile.Sample.locked =
      some (Pem.Encryption.decrypt KeyFile.Sample.locked []) := by
  rw [Terminal.attempt?, Utf8.decode?_eq_some_iff.mpr hline.symm]
  rfl

end Sample

/-- At a terminal two wrong passwords give equal runs; without a terminal the run fails. -/
theorem run_entersPassword_locked :
    (∃ seen, EntersPassword (Sample.paired Sample.lockedPair Sample.attended) Sample.enclaveArguments
      .warn KeyFile.Sample.locked seen) ∧
    (run (Sample.paired Sample.lockedPair Sample.unattended) Sample.enclaveArguments).exitCode =
      some 1 ∧
    run (Sample.paired Sample.lockedPair (Sample.typing 0x61)) Sample.enclaveArguments =
      run (Sample.paired Sample.lockedPair (Sample.typing 0x62)) Sample.enclaveArguments := by
  obtain ⟨seen, henters⟩ := run_entersPassword (Sample.paired Sample.lockedPair Sample.attended)
    Sample.parse_enclaveArguments rfl (Sample.leadsTo_locked _)
  have hattempt : (Sample.typing 0x61).attempt? KeyFile.Sample.locked =
      (Sample.typing 0x62).attempt? KeyFile.Sample.locked := by
    have hfirst : (Sample.typing 0x61).line = Utf8.encode "a" := by decide
    have hsecond : (Sample.typing 0x62).line = Utf8.encode "b" := by decide
    rw [Sample.attempt?_locked hfirst, Sample.attempt?_locked hsecond]
  refine ⟨⟨seen, henters⟩, ?_, ?_⟩
  · exact congrArg Transcript.exitCode (henters.unattended Sample.unattended rfl)
  · exact henters.alike (Sample.typing 0x61) (Sample.typing 0x62) rfl rfl rfl
      (Terminal.interrupts_eq_false (by decide) (by decide))
      (Terminal.interrupts_eq_false (by decide) (by decide)) rfl fun _ => hattempt

/-- A signal from the terminal leaves the question without a newline; a question that cannot be
written is not shown; and a run whose certificates cannot be read does not reach its encrypted
key. -/
theorem run_not_entersPassword :
    (Client.LeadsTo Sample.lockedPair
        (Sample.paired Sample.lockedPair ⟨true, true, [0x03], []⟩).environment KeyFile.Sample.locked ∧
      run (Sample.paired Sample.lockedPair ⟨true, true, [0x03], []⟩) Sample.enclaveArguments =
        ⟨none, "", KeyFile.question⟩) ∧
    run (Sample.paired Sample.lockedPair ⟨true, true, [0x0A], [some Sample.hangup]⟩)
        Sample.enclaveArguments = told "" (.error (.prompt Sample.hangup)) ∧
    (KeyFile.Selected (KeyFile.Sample.fileOf KeyFile.Sample.lockedText) "client.key"
        KeyFile.Sample.locked ∧
      run (Sample.paired (KeyFile.Sample.fileOf KeyFile.Sample.lockedText) Sample.unattended)
          Sample.enclaveArguments =
        told "" (.error (.readCertificate "client.crt" (.system .notFound)))) := by
  refine ⟨⟨Sample.leadsTo_locked _, ?_⟩, ?_, KeyFile.Sample.selected_locked, ?_⟩
  · decide +kernel
  · decide +kernel
  · decide +kernel

end CommandLine

end ClientIdentity
