import ClientIdentity.Text.Base64

namespace ClientIdentity.Base64.Lenient

/-- Why the lenient reading refuses a text. -/
inductive Fault where
  /-- A byte that is neither a symbol, nor padding, nor white space. -/
  | invalidCharacter (byte : UInt8)
  /-- Padding with symbols after its group, or in the first half of the last group. -/
  | prematurePadding
  /-- The last group ends in the wrong number of symbols or padding bytes. -/
  | invalidTrailingPadding
  deriving DecidableEq, Repr

def Fault.message : Fault → String
  | .invalidCharacter byte => s!"InvalidCharacter({byte.toNat})"
  | .prematurePadding => "PrematurePadding"
  | .invalidTrailingPadding => "InvalidTrailingPadding"

/-- Whether the byte is an ASCII space or one of the controls from tab to carriage return. -/
def isSpace (b : UInt8) : Bool :=
  b == 32 || (9 ≤ b && b ≤ 13)

/-- A symbol's value, or padding. -/
abbrev Symbol := Option Nat

/-- The state of a reading: the complete groups' values and the current group's symbols, both
latest first. -/
structure State where
  complete : List Nat
  group : List Symbol

/-- Adds a symbol; a full group is closed first. -/
def State.push (state : State) (symbol : Symbol) : Except Fault State :=
  if state.group.length < 8 then
    .ok { state with group := symbol :: state.group }
  else if state.group.contains none then
    .error .prematurePadding
  else
    .ok { complete := state.group.filterMap id ++ state.complete, group := [symbol] }

/-- Reads the symbols of the input. -/
def State.read (state : State) : Bytes → Except Fault State
  | [] => .ok state
  | b :: rest =>
    if isSpace b then state.read rest
    else
      match value? b with
      | some value =>
        match state.push (some value) with
        | .ok next => next.read rest
        | .error fault => .error fault
      | none =>
        if b = pad then
          match state.push none with
          | .ok next => next.read rest
          | .error fault => .error fault
        else .error (.invalidCharacter b)

/-- The values of the last four symbols or fewer. -/
def closing : List Symbol → Except Fault (List Nat)
  | [] => .ok []
  | [some a, some b, some c, some d] => .ok [a, b, c, d]
  | [some a, some b, some c, none] => .ok [a, b, c]
  | [some a, some b, some c] => .ok [a, b, c]
  | [some a, some b, none, none] => .ok [a, b]
  | [some a, some b] => .ok [a, b]
  | _ => .error .invalidTrailingPadding

/-- The values of the last group. -/
def lastGroup (group : List Symbol) : Except Fault (List Nat) :=
  if group.length ≤ 4 then closing group
  else if (group.take 4).contains none then .error .prematurePadding
  else
    match closing (group.drop 4) with
    | .ok values => .ok ((group.take 4).filterMap id ++ values)
    | .error fault => .error fault

/-- The bytes that a text stands for, or its first fault. -/
def decode (input : Bytes) : Except Fault Bytes :=
  match State.read ⟨[], []⟩ input with
  | .error fault => .error fault
  | .ok state =>
    match lastGroup state.group.reverse with
    | .error fault => .error fault
    | .ok values => .ok (ofValues (state.complete.reverse ++ values))

end ClientIdentity.Base64.Lenient
