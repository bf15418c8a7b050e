import ClientIdentity.Run
import Mathlib.Tactic.Common

namespace ClientIdentity

/-- The error of an outcome. -/
def fault? {ε α : Type} : Except ε α → Option ε
  | .error fault => some fault
  | .ok _ => none

@[simp] theorem fault?_error {ε α : Type} (fault : ε) :
    fault? (.error fault : Except ε α) = some fault := rfl

namespace Run

variable {α β : Type}

@[simp] theorem outcome_pure (value : α) : (pure value : Run α).outcome = .ok value := rfl

@[simp] theorem outcome_log (level : Level) (topic : Topic) (text : String) :
    (log level topic text).outcome = .ok () := rfl

@[simp] theorem outcome_fail (error : Error) : (fail error : Run α).outcome = .error error := rfl

@[simp] theorem outcome_ofExcept (outcome : Except Error α) : (ofExcept outcome).outcome = outcome :=
  rfl

section Outcomes

variable {ε ε' : Type} {rename : ε → ε'} {outcome : Except ε α}

/-- `mapError` returns a value exactly if the outcome does. -/
@[simp] theorem mapError_eq_ok_iff {value : α} :
    outcome.mapError rename = .ok value ↔ outcome = .ok value := by
  cases outcome <;> simp [Except.mapError]

@[simp] theorem mapError_eq_error_iff {error : ε'} :
    outcome.mapError rename = .error error ↔ ∃ fault, outcome = .error fault ∧ rename fault = error := by
  cases outcome <;> simp [Except.mapError]

theorem bind_eq_ok_iff {next : α → Except ε β} {value : β} :
    (outcome >>= next) = .ok value ↔ ∃ between, outcome = .ok between ∧ next between = .ok value := by
  cases outcome <;> simp [bind, Except.bind]

@[simp] theorem throw_ne_ok {fault : ε} {value : α} : (throw fault : Except ε α) ≠ .ok value := by
  simp [throw, throwThe, MonadExceptOf.throw]

@[simp] theorem pure_eq_ok_iff {value other : α} :
    (pure value : Except ε α) = .ok other ↔ value = other := by
  simp [pure, Except.pure]

/-- A check returns a value exactly if its condition does not hold and the rest returns the
value. -/
theorem throw_eq_ok_iff {condition : Prop} [Decidable condition] {fault : ε} {next : α → Except ε β}
    {rest : Except ε β} {value : β} :
    (if condition then throw fault >>= next else rest) = .ok value ↔
      ¬ condition ∧ rest = .ok value := by
  split_ifs with h
  · simp [h, bind_eq_ok_iff]
  · simp [h]

end Outcomes

/-- A bind returns a value exactly if both parts succeed. -/
theorem outcome_bind_eq_ok_iff {run : Run α} {next : α → Run β} {value : β} :
    (run >>= next).outcome = .ok value ↔
      ∃ first, run.outcome = .ok first ∧ (next first).outcome = .ok value := by
  obtain ⟨events, outcome⟩ := run
  cases outcome with
  | error error => simp [bind]
  | ok first => simp [bind]

/-- A bind fails with the error of the first part, or with that of the second part behind it. -/
theorem outcome_bind_eq_error_iff {run : Run α} {next : α → Run β} {error : Error} :
    (run >>= next).outcome = .error error ↔
      run.outcome = .error error ∨
        ∃ first, run.outcome = .ok first ∧ (next first).outcome = .error error := by
  obtain ⟨events, outcome⟩ := run
  cases outcome with
  | error error => simp [bind]
  | ok first => simp [bind]

/-- Every event of a bind is one of the first part or of the second. -/
theorem mem_events_bind {run : Run α} {next : α → Run β} {event : Event}
    (h : event ∈ (run >>= next).events) :
    event ∈ run.events ∨ ∃ first, event ∈ (next first).events := by
  obtain ⟨events, outcome⟩ := run
  cases outcome with
  | error error => exact .inl h
  | ok first =>
    rcases List.mem_append.mp h with hfirst | hsecond
    · exact .inl hfirst
    · exact .inr ⟨first, hsecond⟩

/-- Every event of the first part is one of the bind. -/
theorem mem_events_bind_left {run : Run α} {next : α → Run β} {event : Event}
    (h : event ∈ run.events) : event ∈ (run >>= next).events := by
  obtain ⟨events, outcome⟩ := run
  cases outcome with
  | error error => exact h
  | ok first => exact List.mem_append_left _ h

/-- The run returns the value, with these questions. -/
structure Yields (run : Run α) (value : α) (asked : List String) : Prop where
  outcome : run.outcome = .ok value
  questions : run.questions = asked

theorem yields_pure (value : α) : (pure value : Run α).Yields value [] := ⟨rfl, rfl⟩

theorem yields_log (level : Level) (topic : Topic) (text : String) :
    (log level topic text).Yields () [] := ⟨rfl, rfl⟩

theorem yields_ofExcept {outcome : Except Error α} {value : α} (h : outcome = .ok value) :
    (ofExcept outcome).Yields value [] := ⟨h, rfl⟩

theorem yields_ask {reader : SecretReader} {question secret : String}
    (h : (reader question).outcome = .ok secret) :
    (ask reader question).Yields secret [question] := ⟨h, rfl⟩

/-- A bind yields the value of the second part, with the questions of both in order. -/
theorem Yields.bind {run : Run α} {next : α → Run β} {first : α} {value : β}
    {asked more : List String} (hrun : run.Yields first asked)
    (hnext : (next first).Yields value more) : (run >>= next).Yields value (asked ++ more) := by
  obtain ⟨events, outcome⟩ := run
  obtain ⟨houtcome, hasked⟩ := hrun
  cases houtcome
  refine ⟨hnext.outcome, ?_⟩
  rw [← hasked, ← hnext.questions]
  exact List.filterMap_append

/-- The outcome of a bind behind a part that succeeds is that of the second part. -/
theorem Yields.outcome_bind {run : Run α} {next : α → Run β} {first : α} {asked : List String}
    (hrun : run.Yields first asked) : (run >>= next).outcome = (next first).outcome := by
  obtain ⟨events, outcome⟩ := run
  obtain rfl := hrun.outcome
  rfl

/-- A bind behind a part that asks nothing has the questions of the second part. -/
theorem Yields.bind_silent {run : Run α} {next : α → Run β} {first : α} {value : β}
    {asked : List String} (hrun : run.Yields first []) (hnext : (next first).Yields value asked) :
    (run >>= next).Yields value asked :=
  hrun.bind hnext

/-- The run asks the question once if the condition holds, and nothing otherwise. -/
structure AsksIf (run : Run α) (question : String) (condition : Prop) : Prop where
  asks : condition → run.questions = [question]
  silent : ¬ condition → run.questions = []

theorem questions_bind {run : Run α} {next : α → Run β} :
    (run >>= next).questions = run.questions ++
      match run.outcome with
      | .error _ => []
      | .ok first => (next first).questions := by
  obtain ⟨events, outcome⟩ := run
  cases outcome with
  | error error => exact (List.append_nil _).symm
  | ok first => exact List.filterMap_append

/-- The questions of a bind behind a part that succeeds and asks nothing are those of the second
part. -/
theorem Yields.questions_bind {run : Run α} {next : α → Run β} {first : α}
    (hrun : run.Yields first []) : (run >>= next).questions = (next first).questions := by
  rw [Run.questions_bind, hrun.outcome, hrun.questions, List.nil_append]

theorem questions_bind_eq_nil {run : Run α} {next : α → Run β} (hrun : run.questions = [])
    (hnext : ∀ first, (next first).questions = []) : (run >>= next).questions = [] := by
  rw [questions_bind, hrun, List.nil_append]
  cases run.outcome with
  | error error => rfl
  | ok first => exact hnext first

variable {question : String} {condition : Prop}

/-- A bind behind a part that asks nothing asks if the second part does. -/
theorem AsksIf.behind {run : Run α} {next : α → Run β} {condition : α → Prop}
    (hrun : run.questions = [])
    (hnext : ∀ first, run.outcome = .ok first → (next first).AsksIf question (condition first)) :
    (run >>= next).AsksIf question (∃ first, run.outcome = .ok first ∧ condition first) := by
  have hall : (run >>= next).questions =
      match run.outcome with
      | .error _ => []
      | .ok first => (next first).questions := by
    rw [questions_bind, hrun, List.nil_append]
  constructor
  · rintro ⟨first, houtcome, hfirst⟩
    rw [hall, houtcome]
    exact (hnext first houtcome).asks hfirst
  · intro hnot
    rw [hall]
    cases houtcome : run.outcome with
    | error error => rfl
    | ok first => exact (hnext first houtcome).silent fun h => hnot ⟨first, houtcome, h⟩

/-- Two runs that ask under the same condition have the same questions. -/
theorem AsksIf.questions_eq {β : Type} {run : Run α} {other : Run β}
    (h : run.AsksIf question condition) (hother : other.AsksIf question condition) :
    run.questions = other.questions := by
  by_cases hcondition : condition
  · rw [h.asks hcondition, hother.asks hcondition]
  · rw [h.silent hcondition, hother.silent hcondition]

theorem Yields.asksIf_bind {run : Run α} {next : α → Run β} {first : α}
    (hrun : run.Yields first []) (hnext : (next first).AsksIf question condition) :
    (run >>= next).AsksIf question condition :=
  ⟨fun h => hrun.questions_bind.trans (hnext.asks h),
    fun h => hrun.questions_bind.trans (hnext.silent h)⟩

/-- A bind asks if its first part does and its second part never does. -/
theorem AsksIf.before {run : Run α} {next : α → Run β} (hrun : run.AsksIf question condition)
    (hnext : ∀ first, (next first).questions = []) :
    (run >>= next).AsksIf question condition := by
  have hall : (run >>= next).questions = run.questions := by
    rw [questions_bind]
    cases run.outcome with
    | error error => exact List.append_nil _
    | ok first => exact (congrArg _ (hnext first)).trans (List.append_nil _)
  exact ⟨fun h => hall ▸ hrun.asks h, fun h => hall ▸ hrun.silent h⟩

/-- Two runs come to the same value, or to errors that a function takes to the same, and ask the same
questions. They may tell the log different things. -/
structure Alike {γ : Type} (f : Error → γ) (first second : Run α) : Prop where
  outcome : first.outcome.mapError f = second.outcome.mapError f
  questions : first.questions = second.questions

section Alike

variable {γ : Type} {f : Error → γ} {first second third : Run α}

theorem Alike.refl (run : Run α) : run.Alike f run := ⟨rfl, rfl⟩

theorem Alike.symm (h : first.Alike f second) : second.Alike f first :=
  ⟨h.outcome.symm, h.questions.symm⟩

theorem Alike.trans (h : first.Alike f second) (hnext : second.Alike f third) :
    first.Alike f third :=
  ⟨h.outcome.trans hnext.outcome, h.questions.trans hnext.questions⟩

/-- Alike runs return the same value, or fail with errors that `f` maps to the same. -/
theorem Alike.cases (h : first.Alike f second) :
    (∃ value, first.outcome = .ok value ∧ second.outcome = .ok value) ∨
      ∃ error error', first.outcome = .error error ∧ second.outcome = .error error' ∧
        f error = f error' := by
  have houtcome := h.outcome
  cases hfirst : first.outcome with
  | error error =>
    cases hsecond : second.outcome with
    | error error' =>
      rw [hfirst, hsecond] at houtcome
      exact .inr ⟨error, error', rfl, rfl, Except.error.inj houtcome⟩
    | ok value =>
      rw [hfirst, hsecond] at houtcome
      cases houtcome
  | ok value =>
    rw [hfirst] at houtcome
    exact .inl ⟨value, rfl, mapError_eq_ok_iff.mp houtcome.symm⟩

/-- Binds of alike parts are alike. -/
theorem Alike.bind {next later : α → Run β} (h : first.Alike f second)
    (hnext : ∀ value, (next value).Alike f (later value)) :
    (first >>= next).Alike f (second >>= later) := by
  have hquestions := h.questions
  rcases h.cases with ⟨value, hfirst, hsecond⟩ | ⟨error, error', hfirst, hsecond, hsame⟩
  · refine ⟨?_, ?_⟩
    · have hlater := (hnext value).outcome
      obtain ⟨events, outcome⟩ := first
      obtain ⟨events', outcome'⟩ := second
      cases hfirst
      cases hsecond
      exact hlater
    · rw [questions_bind, questions_bind, hfirst, hsecond, hquestions]
      exact congrArg _ (hnext value).questions
  · have hleft : (first >>= next).outcome = .error error :=
      outcome_bind_eq_error_iff.mpr (.inl hfirst)
    have hright : (second >>= later).outcome = .error error' :=
      outcome_bind_eq_error_iff.mpr (.inl hsecond)
    refine ⟨?_, ?_⟩
    · rw [hleft, hright]
      exact congrArg Except.error hsame
    · rw [questions_bind, questions_bind, hfirst, hsecond, hquestions]

theorem alike_log (level level' : Level) (topic topic' : Topic) (text text' : String) :
    (log level topic text).Alike f (log level' topic' text') := ⟨rfl, rfl⟩

/-- A bind behind a part that succeeds and asks nothing is alike to the second part. -/
theorem Yields.alike_bind {run : Run α} {next : α → Run β} {value : α} (h : run.Yields value []) :
    (run >>= next).Alike f (next value) :=
  ⟨congrArg _ h.outcome_bind, h.questions_bind⟩

end Alike

/-- Two runs let the same be seen, and come to the same error or to related values. -/
structure SeenAlike (related : α → α → Prop) (first second : Run α) : Prop where
  events : first.events = second.events
  outcome : (∃ error, first.outcome = .error error ∧ second.outcome = .error error) ∨
    ∃ value other, first.outcome = .ok value ∧ second.outcome = .ok other ∧ related value other

section SeenAlike

variable {related : α → α → Prop} {first second : Run α}

theorem seenAlike_pure {value other : α} (h : related value other) :
    SeenAlike related (pure value) (pure other) :=
  ⟨rfl, .inr ⟨value, other, rfl, rfl, h⟩⟩

theorem SeenAlike.refl (run : Run α) : SeenAlike Eq run run := by
  refine ⟨rfl, ?_⟩
  cases run.outcome with
  | error error => exact .inl ⟨error, rfl, rfl⟩
  | ok value => exact .inr ⟨value, value, rfl, rfl, rfl⟩

theorem seenAlike_ofExcept {outcome outcome' : Except Error α} {value other : α}
    (hfirst : outcome = .ok value) (hsecond : outcome' = .ok other) (h : related value other) :
    SeenAlike related (ofExcept outcome) (ofExcept outcome') :=
  ⟨rfl, .inr ⟨value, other, hfirst, hsecond, h⟩⟩

theorem seenAlike_fail (error : Error) : SeenAlike related (fail error) (fail error) :=
  ⟨rfl, .inl ⟨error, rfl, rfl⟩⟩

/-- Binds of parts that are seen alike are, if related values of the first parts lead to second
parts that are. -/
theorem SeenAlike.bind {relatedNext : β → β → Prop} {next later : α → Run β}
    (h : SeenAlike related first second)
    (hnext : ∀ value other, related value other → SeenAlike relatedNext (next value) (later other)) :
    SeenAlike relatedNext (first >>= next) (second >>= later) := by
  obtain ⟨events, outcome⟩ := first
  obtain ⟨events', outcome'⟩ := second
  obtain ⟨rfl, ⟨error, hfirst, hsecond⟩ | ⟨value, other, hfirst, hsecond, hrelated⟩⟩ := h
  · cases hfirst
    cases hsecond
    exact ⟨rfl, .inl ⟨error, rfl, rfl⟩⟩
  · cases hfirst
    cases hsecond
    obtain ⟨hevents, houtcome⟩ := hnext value other hrelated
    exact ⟨congrArg (events ++ ·) hevents, houtcome⟩

end SeenAlike

theorem asksIf_of_silent {run : Run α} (hrun : run.questions = []) (hnot : ¬ condition) :
    run.AsksIf question condition :=
  ⟨fun h => absurd h hnot, fun _ => hrun⟩

section Consults

variable {γ : Type} {run : Run α} {value : α} {consult : SecretReader → Run α} {use : String → γ}

/-- The parts of a run can be grouped as one likes. -/
instance : LawfulMonad Run := by
  refine LawfulMonad.mk' Run (fun run => ?_) (fun _ _ => rfl) (fun run next last => ?_)
  · obtain ⟨events, outcome⟩ := run
    cases outcome with
    | error error => rfl
    | ok value => exact congrArg (Run.mk · _) (List.append_nil events)
  · obtain ⟨events, outcome⟩ := run
    cases outcome with
    | error error => rfl
    | ok first =>
      simp only [bind]
      cases (next first).outcome <;> simp

/-- Writes lines to the log. -/
def tell (records : List Record) : Run Unit :=
  ⟨records.map .logged, .ok ()⟩

theorem tell_append (first second : List Record) :
    tell (first ++ second) = tell first >>= fun _ => tell second := by
  simp [tell, bind]

/-- The events of a run without questions are log lines. -/
theorem exists_events_eq_map_logged (h : run.questions = []) :
    ∃ records : List Record, run.events = records.map .logged := by
  obtain ⟨events, outcome⟩ := run
  simp only [questions] at h ⊢
  induction events with
  | nil => exact ⟨[], rfl⟩
  | cons event events ih =>
    cases event with
    | logged line =>
      obtain ⟨records, rfl⟩ := ih h
      exact ⟨line :: records, rfl⟩
    | asked question shown => cases h

theorem Yields.exists_eq_tell (h : run.Yields value []) :
    ∃ records, run = tell records >>= fun _ => pure value := by
  obtain ⟨records, hrecords⟩ := exists_events_eq_map_logged h.questions
  obtain ⟨events, outcome⟩ := run
  obtain rfl := h.outcome
  obtain rfl := hrecords
  exact ⟨records, congrArg (Run.mk · _) (List.append_nil _).symm⟩

/-- The run logs some lines, asks one question and continues from `use` of the secret, for every
reader. -/
def Consults (consult : SecretReader → Run α) (question : String) (use : String → γ) : Prop :=
  ∃ (before : List Record) (next : γ → Run α), (∀ made, (next made).questions = []) ∧
    ∀ reader, consult reader =
      tell before >>= fun _ => ask reader question >>= fun secret => next (use secret)

theorem Consults.bind {next : α → Run β} (h : Consults consult question use)
    (hnext : ∀ value, (next value).questions = []) :
    Consults (fun reader => consult reader >>= next) question use := by
  obtain ⟨before, later, hlater, hconsult⟩ := h
  refine ⟨before, fun made => later made >>= next,
    fun made => questions_bind_eq_nil (hlater made) hnext, fun reader => ?_⟩
  simp only [hconsult, bind_assoc]

/-- A bind consults the reader as its second part does, behind a part that yields a value and asks
nothing. -/
theorem Yields.consults_bind {next : α → SecretReader → Run β} (hrun : run.Yields value [])
    (h : Consults (next value) question use) :
    Consults (fun reader => run >>= fun value => next value reader) question use := by
  obtain ⟨records, rfl⟩ := hrun.exists_eq_tell
  obtain ⟨before, later, hlater, hnext⟩ := h
  refine ⟨records ++ before, later, hlater, fun reader => ?_⟩
  simp only [tell_append, bind_assoc, pure_bind, hnext]

variable {before : List Record} {next : γ → Run α} {reader : SecretReader} {shown : String}

/-- Log lines and a question to a reader that fails are the lines, the question and the error. -/
theorem tell_ask_of_error {error : Error} (h : reader question = ⟨.error error, shown⟩) :
    (tell before >>= fun _ => ask reader question >>= fun secret => next (use secret)) =
      ⟨before.map .logged ++ [.asked question shown], .error error⟩ := by
  simp [tell, ask, bind, h]

theorem tell_ask_of_ok {secret : String} (h : reader question = ⟨.ok secret, shown⟩) :
    (tell before >>= fun _ => ask reader question >>= fun secret => next (use secret)) =
      ⟨before.map .logged ++ .asked question shown :: (next (use secret)).events,
        (next (use secret)).outcome⟩ := by
  simp [tell, ask, bind, h]

end Consults

end Run

end ClientIdentity
