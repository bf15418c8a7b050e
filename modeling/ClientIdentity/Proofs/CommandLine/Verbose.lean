import ClientIdentity.CommandLine.Parsing
import ClientIdentity.Proofs.Run
import Mathlib.Tactic.SplitIfs

namespace ClientIdentity.CommandLine

namespace Progress

variable {command : Command} {flag other : Flag} {p q p' q' : Progress}

@[simp] theorem has_use : (p.use flag).has other = (p.has other || other == flag) := by
  simp only [has, use, List.contains_append, List.contains_cons, List.contains_nil, Bool.or_false]

theorem setValue_eq_ok_iff {value : Bytes} : p.setValue command flag value = .ok p' ↔
    p.has flag = false ∧ ∃ text, Utf8.decode? value = some text ∧
      { p.use flag with enclave := some text } = p' := by
  rw [setValue]
  cases p.has flag <;> cases Utf8.decode? value <;> simp

theorem readFlag_eq_ok_iff : p.readFlag command flag = .ok p' ↔
    ∃ s, p.settle command = .ok s ∧ flag ≠ .help ∧ flag ≠ .version ∧ s.has flag = false ∧
      s.use flag = p' := by
  simp only [readFlag, Run.bind_eq_ok_iff]
  refine exists_congr fun s => and_congr_right fun _ => ?_
  cases flag
  case help => simp
  case version => simp
  all_goals
    simp only [Run.throw_eq_ok_iff, Run.pure_eq_ok_iff]
    simp

theorem readValued_eq_ok_iff {value : Option Bytes} :
    p.readValued command flag value = .ok p' ↔ ∃ s, p.settle command = .ok s ∧
      match value with
      | some value => s.setValue command flag value = .ok p'
      | none => { s with waiting := .forValue flag } = p' := by
  simp only [readValued, Run.bind_eq_ok_iff]
  cases value <;> simp

/-- No option waits for a value behind `settle`. -/
theorem waiting_of_settle (h : p.settle command = .ok p') : p'.waiting = .no := by
  rw [settle] at h
  cases hwaiting : p.waiting with
  | no =>
    simp only [hwaiting, Except.ok.injEq] at h
    exact h ▸ hwaiting
  | forValue flag => simp [hwaiting] at h
  | withValue flag value =>
    simp only [hwaiting] at h
    obtain ⟨-, text, -, rfl⟩ := setValue_eq_ok_iff.mp h
    rfl

theorem settle_of_waiting (h : p.waiting = .no) : p.settle command = .ok p := by
  rw [settle, h]

/-- The second state is the first one with the verbose option, or the first one itself if that has
the option already. -/
structure Louder (p q : Progress) : Prop where
  verbose : q.has .verbose = true
  has_eq : ∀ flag, flag ≠ .verbose → q.has flag = p.has flag
  enclave : q.enclave = p.enclave
  waiting : q.waiting = p.waiting

theorem Louder.refl (h : p.has .verbose = true) : Louder p p := ⟨h, fun _ _ => rfl, rfl, rfl⟩

theorem louder_use : Louder p (p.use .verbose) where
  verbose := by simp
  has_eq flag hflag := by simp [hflag]
  enclave := rfl
  waiting := rfl

theorem Louder.use (h : Louder p q) (flag : Flag) : Louder (p.use flag) (q.use flag) where
  verbose := by simp [h.verbose]
  has_eq other hother := by simp [h.has_eq other hother]
  enclave := h.enclave
  waiting := h.waiting

theorem Louder.wait (h : Louder p q) (waiting : Waiting) :
    Louder { p with waiting := waiting } { q with waiting := waiting } :=
  ⟨h.verbose, h.has_eq, h.enclave, rfl⟩

theorem Louder.setValue {value : Bytes} (h : Louder p q)
    (hvalue : p.setValue command flag value = .ok p') :
    p'.has .verbose = true ∨ ∃ q', q.setValue command flag value = .ok q' ∧ Louder p' q' := by
  obtain ⟨hhas, text, htext, rfl⟩ := setValue_eq_ok_iff.mp hvalue
  by_cases hflag : flag = .verbose
  · left
    subst hflag
    exact has_use.trans (by simp)
  · right
    refine ⟨_, setValue_eq_ok_iff.mpr ⟨(h.has_eq flag hflag).trans hhas, text, htext, rfl⟩, ?_⟩
    exact ⟨(h.use flag).verbose, (h.use flag).has_eq, rfl, h.waiting⟩

/-- The second of two states is the first one, but with the option for a verbose log and, for that
option, with a look at the value that waits in the first one. -/
def Follows (command : Command) (p q : Progress) : Prop :=
  Louder p q ∨ ∃ s, p.settle command = .ok s ∧ Louder s q

theorem Follows.refl (h : p.has .verbose = true) : Follows command p p := .inl (.refl h)

theorem Follows.verbose (h : Follows command p q) : q.has .verbose = true := by
  obtain h | ⟨s, -, h⟩ := h <;> exact h.verbose

/-- While an option waits for its value, two states of which one follows the other differ only in
the verbose option. -/
theorem Follows.louder (h : Follows command p q) (hwaiting : p.waiting = .forValue flag) :
    Louder p q := by
  obtain h | ⟨s, hsettle, -⟩ := h
  · exact h
  · simp [settle, hwaiting] at hsettle

theorem Follows.forValue_iff (h : Follows command p q) :
    q.waiting = .forValue flag ↔ p.waiting = .forValue flag := by
  obtain h | ⟨s, hsettle, h⟩ := h
  · rw [h.waiting]
  · rw [h.waiting, waiting_of_settle hsettle]
    constructor
    · exact fun h => nomatch h
    · intro hwaiting
      simp [settle, hwaiting] at hsettle

theorem Follows.settle (h : Follows command p q) (hsettle : p.settle command = .ok p') :
    p'.has .verbose = true ∨ ∃ q', q.settle command = .ok q' ∧ Louder p' q' := by
  obtain h | ⟨s, hs, h⟩ := h
  · rw [Progress.settle] at hsettle ⊢
    rw [h.waiting]
    cases hwaiting : p.waiting with
    | no =>
      simp only [hwaiting, Except.ok.injEq] at hsettle
      exact .inr ⟨q, rfl, hsettle ▸ h⟩
    | forValue flag => simp [hwaiting] at hsettle
    | withValue flag value =>
      simp only [hwaiting] at hsettle
      exact (h.wait .no).setValue hsettle
  · obtain rfl := Except.ok.inj (hs.symm.trans hsettle)
    exact .inr ⟨q, settle_of_waiting (h.waiting.trans (waiting_of_settle hs)), h⟩

/-- A state that a first reader comes to is followed by what a second one comes to, unless the first
one has met the option too. -/
def Followed (command : Command) (p' : Progress) (outcome : Except Halt Progress) : Prop :=
  p'.has .verbose = true ∨ ∃ q', outcome = .ok q' ∧ Follows command p' q'

theorem Followed.verbose (h : Followed command p' (.ok p')) : p'.has .verbose = true := by
  obtain h | ⟨q', hq', h⟩ := h
  · exact h
  · exact Except.ok.inj hq' ▸ h.verbose

theorem Follows.readFlag (h : Follows command p q) (hread : p.readFlag command flag = .ok p') :
    Followed command p' (q.readFlag command flag) := by
  obtain ⟨s, hsettle, hhelp, hversion, hhas, rfl⟩ := readFlag_eq_ok_iff.mp hread
  obtain hverbose | ⟨t, ht, hlouder⟩ := h.settle hsettle
  · exact .inl (by simp [hverbose])
  by_cases hflag : flag = .verbose
  · exact .inl (by simp [hflag])
  · refine .inr ⟨t.use flag, readFlag_eq_ok_iff.mpr ?_, .inl (hlouder.use flag)⟩
    exact ⟨t, ht, hhelp, hversion, (hlouder.has_eq flag hflag).trans hhas, rfl⟩

theorem Follows.readValued {value : Option Bytes} (h : Follows command p q)
    (hread : p.readValued command flag value = .ok p') :
    Followed command p' (q.readValued command flag value) := by
  obtain ⟨s, hsettle, hvalue⟩ := readValued_eq_ok_iff.mp hread
  obtain hverbose | ⟨t, ht, hlouder⟩ := h.settle hsettle
  · left
    cases value with
    | none => exact hvalue ▸ hverbose
    | some value =>
      obtain ⟨-, text, -, rfl⟩ := setValue_eq_ok_iff.mp hvalue
      exact has_use.trans (by simp [hverbose])
  · cases value with
    | none =>
      subst hvalue
      exact .inr ⟨_, readValued_eq_ok_iff.mpr ⟨t, ht, rfl⟩, .inl (hlouder.wait _)⟩
    | some value =>
      refine (hlouder.setValue hvalue).imp id ?_
      rintro ⟨q', hq', hnext⟩
      exact ⟨q', readValued_eq_ok_iff.mpr ⟨t, ht, hq'⟩, .inl hnext⟩

end Progress

open Progress

section Reading

variable {command : Command} {p q p' : Progress} {request : Request}

theorem followed_readShort {junk : Bytes} {letters : List Char} (h : Follows command p q)
    (hread : readShort command junk p letters = .ok p') :
    Followed command p' (readShort command junk q letters) := by
  induction letters generalizing p q with
  | nil =>
    rw [readShort] at hread ⊢
    split_ifs at hread ⊢
    exact .inr ⟨q, rfl, Except.ok.inj hread ▸ h⟩
  | cons letter letters ih =>
    rw [readShort] at hread ⊢
    cases hfind : command.findShort? letter with
    | none => simp [hfind] at hread
    | some flag =>
      simp only [hfind] at hread ⊢
      split_ifs at hread ⊢
      · exact h.readValued hread
      · cases hflag : p.readFlag command flag with
        | error halt => simp [hflag] at hread
        | ok next =>
          simp only [hflag] at hread
          obtain hverbose | ⟨other, hother, hnext⟩ := h.readFlag hflag
          · -- An option that has been met stays so: the same letters are read from one state twice.
            have hsame := ih (Follows.refl hverbose) hread
            exact .inl (Followed.verbose (hread ▸ hsame))
          · simp only [hother]
            exact ih hnext hread

theorem followed_readLong {input : Bytes} {rest : List Bytes} (h : Follows command p q)
    (hread : readLong command p input rest = .ok p') :
    Followed command p' (readLong command q input rest) := by
  simp only [readLong] at hread ⊢
  split at hread
  · simp at hread
  · split_ifs at hread ⊢
    · exact h.readValued hread
    · split at hread
      · exact h.readFlag hread
      · simp at hread

theorem readArgument_long (input : Bytes) (rest : List Bytes) :
    readArgument command p (0x2D :: 0x2D :: input) rest = readLong command p input rest := by
  simp [readArgument]

theorem readArgument_short {byte : UInt8} {input : Bytes} {rest : List Bytes}
    (hbyte : byte ≠ 0x2D) : readArgument command p (0x2D :: byte :: input) rest =
      readShort command (splitText (byte :: input)).2 p (splitText (byte :: input)).1.toList := by
  unfold readArgument
  split <;> simp_all

/-- An argument without a dash in front is read exactly if an option waits for a value. -/
theorem readArgument_other_eq_ok_iff {arg : Bytes} {rest : List Bytes}
    (harg : ¬ ∃ byte input, arg = 0x2D :: byte :: input) :
    readArgument command p arg rest = .ok p' ↔
      ∃ flag, p.waiting = .forValue flag ∧ { p with waiting := .withValue flag arg } = p' := by
  unfold readArgument
  split
  case h_4 input _ _ _ =>
    cases input <;> simp_all
  all_goals simp_all

theorem argument_cases (arg : Bytes) : (∃ input, arg = 0x2D :: 0x2D :: input) ∨
    (∃ byte input, byte ≠ 0x2D ∧ arg = 0x2D :: byte :: input) ∨
      ¬ ∃ byte input, arg = 0x2D :: byte :: input := by
  by_cases harg : ∃ byte input, arg = 0x2D :: byte :: input
  · obtain ⟨byte, input, rfl⟩ := harg
    by_cases hbyte : byte = 0x2D
    · exact .inl ⟨input, by rw [hbyte]⟩
    · exact .inr (.inl ⟨byte, input, hbyte, rfl⟩)
  · exact .inr (.inr harg)

theorem followed_readArgument {arg : Bytes} {rest : List Bytes} (h : Follows command p q)
    (hread : readArgument command p arg rest = .ok p') :
    Followed command p' (readArgument command q arg rest) := by
  obtain ⟨input, rfl⟩ | ⟨byte, input, hbyte, rfl⟩ | harg := argument_cases arg
  · rw [readArgument_long] at hread ⊢
    exact followed_readLong h hread
  · rw [readArgument_short hbyte] at hread ⊢
    exact followed_readShort h hread
  · obtain ⟨flag, hwaiting, rfl⟩ := (readArgument_other_eq_ok_iff harg).mp hread
    refine .inr ⟨_, (readArgument_other_eq_ok_iff harg).mpr ?_, .inl ((h.louder hwaiting).wait _)⟩
    exact ⟨flag, h.forValue_iff.mpr hwaiting, rfl⟩

/-- The state behind an argument that is read does not depend on the arguments behind it. -/
theorem readArgument_of_ok {arg : Bytes} {rest : List Bytes} (other : List Bytes)
    (hread : readArgument command p arg rest = .ok p') :
    readArgument command p arg other = .ok p' := by
  obtain ⟨input, rfl⟩ | ⟨byte, input, hbyte, rfl⟩ | harg := argument_cases arg
  · rw [readArgument_long, readLong] at hread ⊢
    split at hread
    · simp at hread
    · exact hread
  · rwa [readArgument_short hbyte] at hread ⊢
  · rwa [readArgument_other_eq_ok_iff harg] at hread ⊢

theorem finish_eq_ok_iff : finish command p = .ok request ↔ ∃ s, p.settle command = .ok s ∧
    (command = .identity ∧
        request = ⟨.showIdentity s.enclave (s.has .insecure), s.has .verbose⟩ ∨
      command = .apiKey ∧ request = ⟨.makeApiKey, s.has .verbose⟩) := by
  simp only [finish, Run.bind_eq_ok_iff]
  refine exists_congr fun s => and_congr_right fun _ => ?_
  cases command
  case program => split_ifs <;> simp
  case help => simp
  all_goals
    rw [Run.pure_eq_ok_iff]
    simp [eq_comm]

theorem Progress.Follows.finish (h : Follows command p q)
    (hfinish : finish command p = .ok request) :
    request.verbose = true ∨ finish command q = .ok { request with verbose := true } := by
  obtain ⟨s, hsettle, hrequest⟩ := finish_eq_ok_iff.mp hfinish
  obtain hverbose | ⟨t, ht, hlouder⟩ := h.settle hsettle
  · left
    obtain ⟨-, rfl⟩ | ⟨-, rfl⟩ := hrequest <;> exact hverbose
  · refine .inr (finish_eq_ok_iff.mpr ⟨t, ht, hrequest.imp ?_ ?_⟩)
    · rintro ⟨hcommand, rfl⟩
      simp [hcommand, hlouder.enclave, hlouder.has_eq .insecure, hlouder.verbose]
    · rintro ⟨hcommand, rfl⟩
      simp [hcommand, hlouder.verbose]

theorem subcommandAt?_eq_of_forValue_iff {arg : Bytes}
    (h : ∀ flag, q.waiting = .forValue flag ↔ p.waiting = .forValue flag) :
    subcommandAt? command q arg = subcommandAt? command p arg := by
  cases hp : p.waiting with
  | forValue flag => simp [subcommandAt?, hp, (h flag).mpr hp]
  | no =>
    cases hq : q.waiting <;> simp_all [subcommandAt?]
  | withValue flag value =>
    cases hq : q.waiting <;> simp_all [subcommandAt?]

/-- If a command line is read from one state, it is read from a state that follows it as the same
request with the verbose option, unless it has the option itself. -/
theorem readArguments_follows {arguments : List Bytes} (h : Follows command p q)
    (hread : readArguments command p arguments = .ok request) :
    request.verbose = true ∨
      readArguments command q arguments = .ok { request with verbose := true } := by
  induction arguments generalizing p q request with
  | nil => exact h.finish hread
  | cons arg rest ih =>
    have hsub : subcommandAt? command q arg = subcommandAt? command p arg :=
      subcommandAt?_eq_of_forValue_iff fun _ => h.forValue_iff
    simp only [readArguments, hsub] at hread ⊢
    split at hread
    · simp at hread
    · split at hread
      · simp at hread
      · next inner hinner =>
        obtain rfl := Except.ok.inj hread
        simp [h.verbose]
    · split_ifs at hread ⊢
      · cases rest with
        | nil => exact h.finish hread
        | cons other rest =>
          simp only [readTrailing] at hread
          split_ifs at hread
      · cases harg : readArgument command p arg rest with
        | error halt => simp [harg] at hread
        | ok next =>
          simp only [harg] at hread
          obtain hverbose | ⟨other, hother, hnext⟩ := followed_readArgument h harg
          · -- The first reader has met the option itself, and does not lose it any more.
            obtain hdone | hsame := ih (Follows.refl hverbose) hread
            · exact .inl hdone
            · exact .inl (congrArg Request.verbose (Except.ok.inj (hread.symm.trans hsame)))
          · simp only [hother]
            exact ih hnext hread

end Reading

section Adding

/-- The arguments that ask for a verbose log. -/
def verboseArguments : List Bytes := [Utf8.encode "-v", Utf8.encode "--verbose"]

variable {command : Command} {p q : Progress} {request : Request} {arg : Bytes}

theorem subcommandAt?_verbose (harg : arg ∈ verboseArguments) :
    subcommandAt? command p arg = none := by
  have hnone : ∀ arg ∈ verboseArguments, ∀ command ∈ [Command.program, .identity, .apiKey, .help],
      (Utf8.decode? arg).bind command.findSubcommand? = none := by decide +kernel
  have hfind := hnone arg harg command (by cases command <;> simp)
  cases hwaiting : p.waiting <;> simp [subcommandAt?, hwaiting, hfind]

theorem verbose_ne_dashes (harg : arg ∈ verboseArguments) : arg ≠ Utf8.encode "--" := by
  revert arg
  decide +kernel

theorem findShort?_short {flag : Flag} (h : flag ∈ command.flags) :
    command.findShort? flag.short = some flag := by
  cases command <;> cases flag <;> first | rfl | simp [Command.flags] at h

theorem findLong?_long {flag : Flag} (h : flag ∈ command.flags) :
    command.findLong? flag.long = some flag := by
  cases command <;> cases flag <;> first | rfl | simp [Command.flags] at h

/-- `readArgument` of either form of the verbose option is `readFlag`, for every command but the
help. -/
theorem readArgument_verbose (harg : arg ∈ verboseArguments) (hcommand : command ≠ .help)
    (rest : List Bytes) : readArgument command p arg rest = p.readFlag command .verbose := by
  have hflag : Flag.verbose ∈ command.flags := by
    cases command <;> first | decide | contradiction
  simp only [verboseArguments, List.mem_cons, List.not_mem_nil, or_false] at harg
  obtain rfl | rfl := harg
  · rw [show Utf8.encode "-v" = [0x2D, 0x76] by decide +kernel, readArgument_short (by decide),
      show splitText [0x76] = ("v", []) by decide +kernel,
      show "v".toList = [Flag.verbose.short] by rfl]
    simp only [readShort, findShort?_short hflag, Flag.takesValue, Flag.valueName?,
      Option.isSome_none]
    cases p.readFlag command .verbose <;> rfl
  · rw [show Utf8.encode "--verbose" = 0x2D :: 0x2D :: Utf8.encode "verbose" by decide +kernel,
      readArgument_long]
    have hword : (Utf8.decode? ((Utf8.encode "verbose").takeWhile (· != equalsSign))) =
      some Flag.verbose.long := by decide +kernel
    have hvalue : ((Utf8.encode "verbose").dropWhile (· != equalsSign)).tail? = none := by
      decide +kernel
    simp [readLong, hword, hvalue, findLong?_long hflag, Flag.takesValue, Flag.valueName?]

/-- A quiet command line that is read without the verbose option is read with it as the same
request, but verbose. -/
theorem readArguments_verbose {rest : List Bytes} (harg : arg ∈ verboseArguments)
    (hcommand : command ≠ .help) (hread : readArguments command p rest = .ok request)
    (hquiet : request.verbose = false) (hflag : p.readFlag command .verbose = .ok q) :
    readArguments command p (arg :: rest) = .ok { request with verbose := true } := by
  have hfollows : Follows command p q := by
    obtain ⟨s, hsettle, -, -, -, rfl⟩ := readFlag_eq_ok_iff.mp hflag
    exact .inr ⟨s, hsettle, louder_use⟩
  simp only [readArguments, subcommandAt?_verbose harg, if_neg (verbose_ne_dashes harg),
    readArgument_verbose harg hcommand, hflag]
  exact (readArguments_follows hfollows hread).resolve_left (by simp [hquiet])

/-- The verbose option can be read in a state in which a quiet command line may end. -/
theorem exists_readFlag_of_finish {task : Task} (h : finish command p = .ok ⟨task, false⟩) :
    ∃ q, p.readFlag command .verbose = .ok q := by
  obtain ⟨s, hsettle, hrequest⟩ := finish_eq_ok_iff.mp h
  have hhas : s.has .verbose = false := by
    obtain ⟨-, heq⟩ | ⟨-, heq⟩ := hrequest <;> exact (congrArg Request.verbose heq).symm
  exact ⟨_, readFlag_eq_ok_iff.mpr ⟨s, hsettle, by decide, by decide, hhas, rfl⟩⟩

/-- A quiet command line is read with the verbose option between any two of its arguments as the
same request, but verbose, or it is refused. It can be refused only behind the end of the options,
or where the arguments in front of the option are refused by themselves. -/
theorem readArguments_insert {before after : List Bytes} (harg : arg ∈ verboseArguments)
    (hcommand : command ≠ .help)
    (hread : readArguments command p (before ++ after) = .ok request)
    (hquiet : request.verbose = false) :
    (∃ halt, readArguments command p (before ++ arg :: after) = .error halt ∧
      (Utf8.encode "--" ∈ before ∨
        ∀ task, readArguments command p before ≠ .ok ⟨task, false⟩)) ∨
      readArguments command p (before ++ arg :: after) = .ok { request with verbose := true } := by
  induction before generalizing command p request with
  | nil =>
    cases hflag : p.readFlag command .verbose with
    | ok q => exact .inr (readArguments_verbose harg hcommand hread hquiet hflag)
    | error halt =>
      refine .inl ⟨halt, ?_, .inr fun task hfinish => ?_⟩
      · simp [readArguments, subcommandAt?_verbose harg, if_neg (verbose_ne_dashes harg),
          readArgument_verbose harg hcommand, hflag]
      · obtain ⟨q, hq⟩ := exists_readFlag_of_finish hfinish
        exact nomatch hflag.symm.trans hq
  | cons first before ih =>
    simp only [List.cons_append, readArguments] at hread ⊢
    split at hread
    · simp at hread
    · next sub hhelp hsub =>
      split at hread
      · simp at hread
      · next inner hinner =>
        obtain rfl := Except.ok.inj hread
        simp only [Bool.or_eq_false_iff] at hquiet
        obtain ⟨halt, hhalt, hwhy⟩ | hinserted := ih hhelp hinner hquiet.1
        · refine .inl ⟨halt, by simp only [hhalt], hwhy.imp (List.mem_cons_of_mem _) ?_⟩
          intro hshort task hread
          split at hread
          · simp at hread
          · next short hinnerShort =>
            have hverbose := congrArg Request.verbose (Except.ok.inj hread)
            simp only [Bool.or_eq_false_iff] at hverbose
            exact hshort short.task (hinnerShort.trans (by rw [← hverbose.1]))
        · exact .inr (by simp [hinserted])
    · split_ifs at hread ⊢ with hdashes
      · -- Behind the end of the options nothing can be added.
        left
        rw [hdashes]
        cases before <;> simp only [List.nil_append, List.cons_append, readTrailing] <;>
          split_ifs <;> simp
      · cases hfirst : readArgument command p first (before ++ after) with
        | error halt => simp [hfirst] at hread
        | ok next =>
          simp only [hfirst] at hread
          simp only [readArgument_of_ok _ hfirst]
          exact (ih hcommand hread hquiet).imp_left fun ⟨halt, hhalt, hwhy⟩ =>
            ⟨halt, hhalt, hwhy.imp_left (List.mem_cons_of_mem _)⟩

/-- An option that can be added to an accepted command line, and changes nothing but how much of the
log is shown. -/
structure Addable (arguments : List Bytes) (request : Request) (arg : Bytes) : Prop where
  front : parse (arg :: arguments) = .ok { request with verbose := true }
  /-- It can be put behind arguments that are accepted by themselves, unless they end the options. -/
  behind : ∀ before after task, arguments = before ++ after → Utf8.encode "--" ∉ before →
    parse before = .ok ⟨task, false⟩ →
    parse (before ++ arg :: after) = .ok { request with verbose := true }
  anywhere : ∀ before after, arguments = before ++ after →
    (∃ halt, parse (before ++ arg :: after) = .error halt) ∨
      parse (before ++ arg :: after) = .ok { request with verbose := true }

theorem addable_verbose {arguments : List Bytes} (hparse : parse arguments = .ok request)
    (hquiet : request.verbose = false) (harg : arg ∈ verboseArguments) :
    Addable arguments request arg where
  front := readArguments_verbose harg (by decide) hparse hquiet (p := .fresh) rfl
  behind := by
    rintro before after task rfl hdashes hbefore
    refine (readArguments_insert harg (by decide) hparse hquiet).resolve_left ?_
    rintro ⟨-, -, hmem | hshort⟩
    · exact hdashes hmem
    · exact hshort task hbefore
  anywhere := by
    rintro before after rfl
    exact (readArguments_insert harg (by decide) hparse hquiet).imp_left fun ⟨halt, hhalt, _⟩ =>
      ⟨halt, hhalt⟩

end Adding

end ClientIdentity.CommandLine
