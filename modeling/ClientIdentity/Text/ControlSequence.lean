namespace ClientIdentity.ControlSequence

/-- Where a text stands between two characters. -/
inductive Place where
  | outside
  | behindEscape
  /-- Behind an escape character and an intermediate one. -/
  | behindIntermediate
  /-- In a sequence with parameters. -/
  | inParameters
  /-- In a command to the operating system. -/
  | inCommand
  /-- At the parameters of a string to a device. -/
  | deviceStart
  /-- Behind a parameter of a string to a device. -/
  | deviceParameters
  /-- Behind an intermediate character of a string to a device. -/
  | deviceIntermediates
  /-- In a string to a device or to a program. -/
  | inString
  deriving DecidableEq, Repr

/-- Whether a character lies between two others. -/
def between (low high c : Char) : Bool :=
  low ≤ c && c ≤ high

/-- Whether an intermediate character of a sequence stands here. -/
def isIntermediate (c : Char) : Bool :=
  between ' ' '/' c

/-- Whether the encoding of a character holds the byte that ends a string. -/
def holdsTerminator (c : Char) : Bool :=
  (String.utf8EncodeChar c).contains 0x9C

namespace Place

/-- The place behind a character that belongs to a sequence. The escape character begins a sequence
anywhere, and the characters for cancelling end one anywhere. -/
def next (place : Place) (c : Char) : Place :=
  if c = '\x1b' then .behindEscape
  else if c = '\x18' ∨ c = '\x1a' then .outside
  else
    match place with
    | .outside => .outside
    | .behindEscape =>
      if isIntermediate c then .behindIntermediate
      else if c = '[' then .inParameters
      else if c = ']' then .inCommand
      else if c = 'P' then .deviceStart
      else if c = 'X' ∨ c = '^' ∨ c = '_' then .inString
      else if between '0' '~' c then .outside
      else place
    | .behindIntermediate => if between '0' '~' c then .outside else place
    | .inParameters => if between '@' '~' c then .outside else place
    | .inCommand => if c = '\x07' then .outside else place
    | .deviceStart =>
      if isIntermediate c then .deviceIntermediates
      else if between '0' '?' c then .deviceParameters
      else if between '@' '~' c then .inString
      else place
    | .deviceParameters =>
      if isIntermediate c then .deviceIntermediates
      else if between '<' '~' c then .inString
      else place
    | .deviceIntermediates => if between '0' '~' c then .inString else place
    | .inString => if holdsTerminator c then .outside else place

/-- Whether a line feed or another blank control character is shown at a place: strings swallow
it. -/
def showsBlanks : Place → Bool
  | .outside | .behindEscape | .behindIntermediate | .inParameters => true
  | _ => false

end Place

/-- Whether a control character only moves on to another column or line. -/
def isBlankControl (c : Char) : Bool :=
  c == '\t' || c == '\n' || c == '\x0c' || c == '\r'

/-- Whether a character can be seen or is blank. -/
def isVisible (c : Char) : Bool :=
  (' ' ≤ c && c != '\x7f') || isBlankControl c

/-- How far a text has been read. -/
structure Progress where
  place : Place
  /-- A blank control character inside a sequence puts the sequence off: characters are shown up to
  the next one that is not visible, where the sequence goes on. -/
  showing : Bool
  deriving DecidableEq, Repr

namespace Progress

def fresh : Progress := ⟨.outside, true⟩

/-- Whether a character is shown. -/
def shows (progress : Progress) (c : Char) : Bool :=
  (isVisible c && (progress.showing || progress.place == .outside)) ||
    (isBlankControl c && progress.place.showsBlanks)

/-- A shown character outside ASCII ends the sequence that was put off. -/
def step (progress : Progress) (c : Char) : Progress :=
  if progress.shows c then
    ⟨if c < '\x80' then progress.place else .outside, true⟩
  else
    ⟨progress.place.next c, false⟩

/-- The characters that are shown. -/
def visible (progress : Progress) : List Char → List Char
  | [] => []
  | c :: rest =>
    let shown := (progress.step c).visible rest
    if progress.shows c then c :: shown else shown

end Progress

/-- The text without control characters and control sequences. A sequence without an end goes to the
end of the text. -/
def remove (text : String) : String :=
  String.ofList (Progress.fresh.visible text.toList)

end ClientIdentity.ControlSequence
