import ClientIdentity.Terminal

namespace ClientIdentity

namespace Screen

variable {shown text : String} {faults : List (Option SystemFault)}

theorem write_of_writable (h : ∀ fault ∈ faults, fault = none) :
    write text ⟨shown, faults⟩ = (.ok (), ⟨shown ++ text, faults.tail⟩) := by
  cases faults with
  | nil => rfl
  | cons first rest =>
    obtain rfl := h first List.mem_cons_self
    rfl

/-- `write` shows the whole text, or fails and shows nothing. -/
theorem write_cases (text : String) (screen : Screen) :
    (∃ rest, write text screen = (.ok (), ⟨screen.shown ++ text, rest⟩)) ∨
      ∃ fault rest, write text screen = (.error fault, ⟨screen.shown, rest⟩) := by
  obtain ⟨shown, faults⟩ := screen
  rcases faults with _ | ⟨_ | fault, rest⟩
  · exact .inl ⟨[], rfl⟩
  · exact .inl ⟨rest, rfl⟩
  · exact .inr ⟨fault, rest, rfl⟩

end Screen

namespace Terminal

variable {terminal : Terminal} {question text : String} {screen : Screen} {fault : SystemFault}

section Steps

theorem readSecureLine_of_error (h : terminal.secret = .error fault) (screen : Screen) :
    terminal.readSecureLine screen = (.error fault, screen) := by
  rw [readSecureLine, h]
  rfl

theorem readSecureLine_of_ok (h : terminal.secret = .ok text) (screen : Screen) :
    terminal.readSecureLine screen =
      ((Screen.write "\n" screen).1.map fun _ => text, (Screen.write "\n" screen).2) := by
  rw [readSecureLine, h]
  simp only [bind, StateT.bind]
  obtain ⟨rest, hwrite⟩ | ⟨fault, rest, hwrite⟩ := Screen.write_cases "\n" screen <;>
    simp [hwrite, Except.map] <;> rfl

theorem reader_of_not_interactive (h : terminal.interactive = false) (question : String) :
    terminal.reader question = ⟨.error .notInteractive, ""⟩ := by
  simp [reader, readSecret, h]
  rfl

theorem readSecret_eq (h : terminal.interactive = true) (question : String) (screen : Screen) :
    terminal.readSecret question screen =
      match Screen.write question screen with
      | (.error fault, asked) => (.error (.prompt fault), asked)
      | (.ok (), asked) =>
        match terminal.readSecureLine asked with
        | (.ok text, ended) => (.ok text, ended)
        | (.error fault, ended) => (.error (.prompt fault), (Screen.write "\n" ended).2) := by
  simp only [readSecret, h, Bool.not_true, Bool.false_eq_true, if_false, bind, StateT.bind]
  obtain ⟨rest, hwrite⟩ | ⟨fault, rest, hwrite⟩ := Screen.write_cases question screen
  · simp only [hwrite]
    cases hread : terminal.readSecureLine ⟨screen.shown ++ question, rest⟩ with
    | mk outcome ended =>
      simp only [StateT.bind, bind, hread]
      cases outcome <;> rfl
  · simp only [hwrite]
    rfl

theorem reader_eq (terminal : Terminal) (question : String) :
    terminal.reader question =
      ⟨(terminal.readSecret question ⟨"", terminal.faults⟩).1,
        (terminal.readSecret question ⟨"", terminal.faults⟩).2.shown⟩ := rfl

end Steps

section Balance

/-- `reader` fails and shows nothing if the question cannot be written. -/
theorem reader_of_refused (h : terminal.interactive = true)
    (hfault : terminal.faults.head? = some (some fault)) (question : String) :
    terminal.reader question = ⟨.error (.prompt fault), ""⟩ := by
  have hrefused : Screen.write question ⟨"", terminal.faults⟩ =
      (.error fault, ⟨"", terminal.faults.tail⟩) := by
    cases hfaults : terminal.faults with
    | nil => simp [hfaults] at hfault
    | cons first rest =>
      obtain rfl : first = some fault := by simpa [hfaults] using hfault
      rfl
  rw [reader_eq, readSecret_eq h, hrefused]

/-- `reader` shows the question and exactly one newline if every write succeeds: that of `readLine`
for a secret, or that of `readSecret` for an error. -/
theorem reader_of_writable (h : terminal.interactive = true)
    (hwritable : ∀ fault ∈ terminal.faults, fault = none) (question : String) :
    terminal.reader question = ⟨terminal.secret.mapError .prompt, question ++ "\n"⟩ := by
  have htail : ∀ fault ∈ terminal.faults.tail, fault = none :=
    fun fault hfault => hwritable fault (List.mem_of_mem_tail hfault)
  rw [reader_eq, readSecret_eq h, Screen.write_of_writable hwritable, String.empty_append]
  cases hsecret : terminal.secret with
  | ok text =>
    simp only [readSecureLine_of_ok hsecret, Screen.write_of_writable htail]
    rfl
  | error fault =>
    simp only [readSecureLine_of_error hsecret, Screen.write_of_writable htail]
    rfl

/-- `reader` shows at most one newline behind a question that has been written, whichever of the
later writes fail. -/
theorem shown_reader (h : terminal.waits = true) (question : String) :
    (terminal.reader question).shown = question ∨
      (terminal.reader question).shown = question ++ "\n" := by
  obtain ⟨hinteractive, hfault⟩ := Bool.and_eq_true_iff.mp h
  have hwritten : ∃ rest, Screen.write question ⟨"", terminal.faults⟩ = (.ok (), ⟨question, rest⟩) := by
    rcases hfaults : terminal.faults with _ | ⟨_ | first, rest⟩
    · exact ⟨[], by simp [Screen.write]⟩
    · exact ⟨rest, by simp [Screen.write]⟩
    · simp [hfaults] at hfault
  obtain ⟨rest, hwrite⟩ := hwritten
  rw [reader_eq, readSecret_eq hinteractive, hwrite]
  cases hsecret : terminal.secret with
  | ok text =>
    simp only [readSecureLine_of_ok hsecret]
    obtain ⟨later, hline⟩ | ⟨fault, later, hline⟩ := Screen.write_cases "\n" ⟨question, rest⟩
    · simp [hline, Except.map]
    · obtain ⟨last, hown⟩ | ⟨other, last, hown⟩ := Screen.write_cases "\n" ⟨question, later⟩ <;>
        simp [hline, hown, Except.map]
  | error fault =>
    simp only [readSecureLine_of_error hsecret]
    obtain ⟨last, hown⟩ | ⟨other, last, hown⟩ := Screen.write_cases "\n" ⟨question, rest⟩ <;>
      simp [hown]

end Balance

section Answers

/-- `reader` fails with `notInteractive` or with `prompt`. -/
theorem reader_eq_error {error : Error} (h : (terminal.reader question).outcome = .error error) :
    error = .notInteractive ∨ ∃ fault, error = .prompt fault := by
  cases hinteractive : terminal.interactive with
  | false =>
    rw [reader_of_not_interactive hinteractive] at h
    exact .inl (Except.error.inj h).symm
  | true =>
    rw [reader_eq, readSecret_eq hinteractive] at h
    split at h
    · exact .inr ⟨_, (Except.error.inj h).symm⟩
    · split at h
      · cases h
      · exact .inr ⟨_, (Except.error.inj h).symm⟩

/-- What `reader` shows, and the outcome under `f`, depend on the secret only through `f`. -/
theorem reader_congr {α : Type} {first second : Terminal} {f : String → α}
    (hinteractive : first.interactive = second.interactive) (hfaults : first.faults = second.faults)
    (hsecret : first.secret.map f = second.secret.map f) (question : String) :
    (first.reader question).outcome.map f = (second.reader question).outcome.map f ∧
      (first.reader question).shown = (second.reader question).shown := by
  cases hfirst : first.interactive with
  | false =>
    rw [reader_of_not_interactive hfirst, reader_of_not_interactive (hinteractive ▸ hfirst)]
    exact ⟨rfl, rfl⟩
  | true =>
    rw [reader_eq, reader_eq, readSecret_eq hfirst, readSecret_eq (hinteractive ▸ hfirst), hfaults]
    obtain ⟨rest, hwrite⟩ | ⟨fault, rest, hwrite⟩ :=
      Screen.write_cases question ⟨"", second.faults⟩
    · rw [hwrite]
      simp only
      cases hone : first.secret with
      | error fault =>
        cases htwo : second.secret with
        | error other =>
          rw [hone, htwo] at hsecret
          obtain rfl : fault = other := Except.error.inj hsecret
          rw [readSecureLine_of_error hone, readSecureLine_of_error htwo]
          exact ⟨rfl, rfl⟩
        | ok text =>
          rw [hone, htwo] at hsecret
          cases hsecret
      | ok text =>
        cases htwo : second.secret with
        | error other =>
          rw [hone, htwo] at hsecret
          cases hsecret
        | ok other =>
          rw [hone, htwo] at hsecret
          have hsame : f text = f other := Except.ok.inj hsecret
          simp only [readSecureLine_of_ok hone, readSecureLine_of_ok htwo]
          cases hline : (Screen.write "\n" ⟨"" ++ question, rest⟩).1 <;>
            simp [Except.map, hsame]
    · rw [hwrite]
      exact ⟨rfl, rfl⟩

end Answers

end Terminal

end ClientIdentity
