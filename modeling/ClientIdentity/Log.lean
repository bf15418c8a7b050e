import ClientIdentity.Run

namespace ClientIdentity

/-- The name of a level, at the right of five characters. -/
def Level.text : Level → String
  | .debug => "DEBUG"
  | .info => " INFO"
  | .warn => " WARN"

namespace Log

/-- The controls that could steer a terminal, and how a line of the log writes them. -/
def controls : List (Char × String) :=
  [('\x1b', "\\x1b"), ('\x07', "\\x07"), ('\x08', "\\x08"), ('\x0c', "\\x0c"), ('\x7f', "\\x7f")]

/-- How a line of the log writes a character. -/
def writeChar (c : Char) : String :=
  match controls.lookup c with
  | some text => text
  | none =>
    if 0x80 ≤ c.toNat ∧ c.toNat ≤ 0x9F then
      "\\u\x7b" ++ String.ofList (Nat.toDigits 16 c.toNat) ++ "\x7d"
    else
      c.toString

/-- A line of the log; `stamp` is the time. -/
def writeLine (stamp : String) (line : Record) : String :=
  stamp ++ " " ++ line.level.text ++ " " ++ line.topic.name ++ ": " ++
    String.join (line.text.toList.map writeChar) ++ "\n"

/-- What is shown of an event when lines below a level are left out. -/
def describe (stamp : String) (least : Level) : Event → String
  | .logged line => if least.rank ≤ line.level.rank then writeLine stamp line else ""
  | .asked _ shown => shown

/-- What is shown of the events of a run. -/
def showAll (stamp : String) (least : Level) (events : List Event) : String :=
  String.join (events.map (describe stamp least))

end Log

namespace Error

/-- The text with an indent in front of every line but the first. -/
def indentLines (indent text : String) : String :=
  String.join (text.toList.map fun c => if c = '\n' then "\n" ++ indent else c.toString)

/-- A cause, with its number if there are others. -/
def reportCause (numbered : Bool) (number : Nat) (cause : String) : String :=
  if numbered then
    let digits := toString number
    "\n" ++ "".pushn ' ' (5 - digits.length) ++ digits ++ ": " ++ indentLines "       " cause
  else
    "\n    " ++ indentLines "    " cause

/-- The report of an error, with its causes. -/
def report (error : Error) : String :=
  let causes := error.causes
  let part :=
    if causes.isEmpty then ""
    else
      "\n\nCaused by:" ++
        String.join (causes.mapIdx fun i cause => reportCause (1 < causes.length) i cause)
  "Error: " ++ error.message ++ part ++ "\n"

end Error

end ClientIdentity
