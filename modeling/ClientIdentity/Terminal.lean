import ClientIdentity.Run
import ClientIdentity.Terminal.Line

namespace ClientIdentity

/-- A place to ask at, and what will be typed there. -/
structure Terminal where
  /-- Whether the program's errors are shown on a terminal. -/
  interactive : Bool
  /-- Whether the terminal can be opened for reading. -/
  readable : Bool
  typed : Bytes
  /-- The faults of the writes to the terminal, in order. A write beyond the list succeeds. -/
  faults : List (Option SystemFault)
  deriving DecidableEq, Repr

/-- What a terminal shows while a program writes to it, and the faults of the writes to come. -/
structure Screen where
  shown : String
  faults : List (Option SystemFault)
  deriving DecidableEq, Repr

/-- Writes a text. A write that fails shows nothing. -/
def Screen.write (text : String) : StateM Screen (Except SystemFault Unit) := fun screen =>
  match screen.faults with
  | [] => (.ok (), ⟨screen.shown ++ text, []⟩)
  | none :: faults => (.ok (), ⟨screen.shown ++ text, faults⟩)
  | some fault :: faults => (.error fault, ⟨screen.shown, faults⟩)

namespace Terminal

/-- The first line that is typed, without its end. -/
def line (terminal : Terminal) : Bytes :=
  (typedLine? terminal.typed).getD []

/-- Whether a signal from the terminal ends a program that waits for a line. -/
def interrupts (terminal : Terminal) : Bool :=
  terminal.readable && (typedLine? terminal.typed).isNone

/-- Whether a program that asks gets as far as waiting for a line. -/
def waits (terminal : Terminal) : Bool :=
  terminal.interactive && (terminal.faults.head?.join).isNone

/-- The secret that is read from the terminal by a program that is not interrupted. -/
def secret (terminal : Terminal) : Except SystemFault String :=
  if terminal.readable then
    match Utf8.decode? terminal.line with
    | some text => .ok text
    | none => .error .notText
  else
    .error .noDevice

/-- Reads a line that is not echoed. A line that could be read is ended on the screen. -/
def readSecureLine (terminal : Terminal) : StateM Screen (Except SystemFault String) := do
  match terminal.secret with
  | .error fault => return .error fault
  | .ok text =>
    match ← Screen.write "\n" with
    | .error fault => return .error fault
    | .ok () => return .ok text

/-- Shows a question and reads the answer. Where no line could be read, the line of the question is
ended here, and it does not matter whether that succeeds. -/
def readSecret (terminal : Terminal) (question : String) : StateM Screen (Except Error String) := do
  if !terminal.interactive then
    return .error .notInteractive
  match ← Screen.write question with
  | .error fault => return .error (.prompt fault)
  | .ok () =>
    match ← terminal.readSecureLine with
    | .ok text => return .ok text
    | .error fault =>
      let _ ← Screen.write "\n"
      return .error (.prompt fault)

/-- Someone at the terminal. -/
def reader (terminal : Terminal) : SecretReader := fun question =>
  let (outcome, screen) := (terminal.readSecret question).run ⟨"", terminal.faults⟩
  ⟨outcome, screen.shown⟩

end Terminal

end ClientIdentity
