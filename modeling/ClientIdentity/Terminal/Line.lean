import ClientIdentity.Bytes

namespace ClientIdentity.Terminal

/-- What a typed byte does. -/
inductive Stroke where
  | insert
  /-- Takes back the byte in front of it. -/
  | erase
  /-- Takes back the word in front of it. -/
  | eraseWord
  /-- Takes back the line. -/
  | eraseLine
  /-- Lets the next byte be a part of the line, whatever it does otherwise. -/
  | literal
  /-- Sends off what has been typed; with nothing typed, the input ends here. -/
  | send
  /-- Stops or restarts the terminal. -/
  | flow
  /-- Ends the program. -/
  | interrupt
  /-- Asks the program to rest, which it does not do. All that has not been read is lost. -/
  | suspend
  | endLine
  deriving DecidableEq, Repr

/-- What a byte does when it is typed. -/
def Stroke.ofByte (b : UInt8) : Stroke :=
  if b = 0x0A ∨ b = 0x0D then .endLine
  else if b = 0x7F then .erase
  else if b = 0x17 then .eraseWord
  else if b = 0x15 then .eraseLine
  else if b = 0x16 then .literal
  else if b = 0x04 then .send
  else if b = 0x11 ∨ b = 0x13 then .flow
  else if b = 0x03 ∨ b = 0x1C then .interrupt
  else if b = 0x1A then .suspend
  else .insert

/-- What the signals among the bytes that are still to be typed leave of all bytes, where `kept`
holds those typed so far, latest first: nothing if one of them ends the program. -/
def heed (kept : Bytes) : (literally : Bool) → Bytes → Option Bytes
  | _, [] => some kept.reverse
  | true, b :: rest => heed (b :: kept) false rest
  | false, b :: rest =>
    match Stroke.ofByte b with
    | .interrupt => none
    | .suspend => heed [] false rest
    | .literal => heed (b :: kept) true rest
    | _ => heed (b :: kept) false rest

/-- Whether a byte is a part of a word: an ASCII letter or digit, an underscore, or a letter of the
upper half of Latin-1. -/
def isWordByte (b : UInt8) : Bool :=
  (0x30 ≤ b && b ≤ 0x39) || (0x41 ≤ b && b ≤ 0x5A) || (0x61 ≤ b && b ≤ 0x7A) || b == 0x5F ||
    (0xC0 ≤ b && b != 0xD7 && b != 0xF7)

/-- A line that is being typed. -/
structure Typing where
  /-- What has been sent off and cannot be taken back. -/
  sent : Bytes
  /-- What has been typed since, latest first. -/
  recent : Bytes
  deriving DecidableEq, Repr

namespace Typing

def fresh : Typing := ⟨[], []⟩

/-- The bytes that a line has room for, its end included. -/
def room : Nat := 4096

/-- A full line gives up its latest byte for the next one. -/
def makeRoom (typing : Typing) : Typing :=
  if room ≤ typing.recent.length then { typing with recent := typing.recent.tail } else typing

def insert (typing : Typing) (b : UInt8) : Typing :=
  { typing with recent := b :: typing.recent }

/-- The word in front of the next byte is taken back, with what stands behind it. -/
def eraseWord (typing : Typing) : Typing :=
  { typing with
    recent := (typing.recent.dropWhile fun b => !isWordByte b).dropWhile isWordByte }

/-- Everything that has been typed. -/
def all (typing : Typing) : Bytes :=
  typing.sent ++ typing.recent.reverse

def send (typing : Typing) : Typing :=
  ⟨typing.all, []⟩

/-- The line that comes of the bytes that are still to be typed. -/
def finish (typing : Typing) : (literally : Bool) → Bytes → Bytes
  | _, [] => typing.all
  | true, b :: rest => (typing.makeRoom.insert b).finish false rest
  | false, b :: rest =>
    let typing := typing.makeRoom
    match Stroke.ofByte b with
    | .insert => (typing.insert b).finish false rest
    | .erase => { typing with recent := typing.recent.tail }.finish false rest
    | .eraseWord => typing.eraseWord.finish false rest
    | .eraseLine => { typing with recent := [] }.finish false rest
    | .literal => typing.finish true rest
    | .send => if typing.recent.isEmpty then typing.all else typing.send.finish false rest
    | .flow | .interrupt | .suspend => typing.finish false rest
    | .endLine => typing.all

end Typing

/-- The strokes that type bytes as they stand. -/
def literally (line : Bytes) : Bytes :=
  line.flatMap fun b => [0x16, b]

/-- The first line of a text, without the carriage returns at its end. -/
def dropLineEnd (line : Bytes) : Bytes :=
  ((line.takeWhile (· != 0x0A)).reverse.dropWhile (· == 0x0D)).reverse

/-- The line that comes of typed bytes, without its end: none if the program does not live to read
it. The terminal heeds the signals in all bytes before the program reads any. -/
def typedLine? (typed : Bytes) : Option Bytes :=
  (heed [] false typed).map fun bytes => dropLineEnd (Typing.fresh.finish false bytes)

end ClientIdentity.Terminal
