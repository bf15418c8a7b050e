import ClientIdentity.Bytes

namespace ClientIdentity.Utf8

/-- The UTF-8 bytes of a text. -/
def encode (text : String) : Bytes :=
  text.toByteArray.data.toList

/-- Where bytes stop being UTF-8: the position of the faulty character, and how many bytes of it
are to be dropped; no number if the input ends inside a character. -/
structure Fault where
  /-- The position at which the faulty character begins. -/
  position : Nat
  /-- The number of bytes that belong to the fault. -/
  length : Option Nat
  deriving DecidableEq, Repr

namespace Fault

def message (fault : Fault) : String :=
  match fault.length with
  | some n => s!"invalid utf-8 sequence of {n} bytes from index {fault.position}"
  | none => s!"incomplete utf-8 byte sequence from index {fault.position}"

end Fault

/-- What stands at the front of a non-empty input. -/
inductive Front where
  /-- A character and the number of its bytes. -/
  | scalar (c : Char) (length : Nat)
  /-- Bytes that no character begins with. -/
  | invalid (length : Nat)
  /-- The beginning of a character, up to the end of the input. -/
  | truncated

/-- The range of the second byte of a character that begins with `lead`, and the number of its
bytes; nothing for a byte that begins no character of several bytes. -/
def leadRange (lead : UInt8) : Option (UInt8 × UInt8 × Nat) :=
  if 0xC2 ≤ lead ∧ lead ≤ 0xDF then some (0x80, 0xBF, 2)
  else if lead = 0xE0 then some (0xA0, 0xBF, 3)
  else if lead = 0xED then some (0x80, 0x9F, 3)
  else if 0xE1 ≤ lead ∧ lead ≤ 0xEF then some (0x80, 0xBF, 3)
  else if lead = 0xF0 then some (0x90, 0xBF, 4)
  else if 0xF1 ≤ lead ∧ lead ≤ 0xF3 then some (0x80, 0xBF, 4)
  else if lead = 0xF4 then some (0x80, 0x8F, 4)
  else none

/-- The six low bits of a byte. -/
def sixBits (b : UInt8) : Nat :=
  b.toNat % 64

/-- Reads the bytes that continue a character: `value` holds its bits so far, `taken` counts its
bytes so far, `more` those that are missing, and the next of them lies between `low` and `high`. -/
def continuation (value taken : Nat) : (more : Nat) → (low high : UInt8) → Bytes → Front
  | 0, _, _, _ => .scalar (Char.ofNat value) taken
  | _ + 1, _, _, [] => .truncated
  | more + 1, low, high, b :: rest =>
    if low ≤ b ∧ b ≤ high then
      continuation (value * 64 + sixBits b) (taken + 1) more 0x80 0xBF rest
    else
      .invalid taken

/-- Classifies the front of an input that begins with `lead`. -/
def front (lead : UInt8) (rest : Bytes) : Front :=
  if lead < 0x80 then .scalar (Char.ofNat lead.toNat) 1
  else
    match leadRange lead with
    | none => .invalid 1
    | some (low, high, length) =>
      let bits := lead.toNat % Nat.pow 2 (7 - length)
      continuation bits 1 (length - 1) low high rest

/-- The first fault of an input whose first byte stands at `position`. -/
def faultFrom (position : Nat) : (skip : Nat) → Bytes → Option Fault
  | _, [] => none
  | skip + 1, _ :: rest => faultFrom (position + 1) skip rest
  | 0, b :: rest =>
    match front b rest with
    | .scalar _ n => faultFrom (position + 1) (n - 1) rest
    | .invalid n => some ⟨position, some n⟩
    | .truncated => some ⟨position, none⟩

/-- The text with these UTF-8 bytes, or the first fault. -/
def decode (input : Bytes) : Except Fault String :=
  match String.fromUTF8? input.toByteArray with
  | some text => .ok text
  | none => .error ((faultFrom 0 0 input).getD ⟨0, none⟩)

/-- The text with these UTF-8 bytes, if they are UTF-8. -/
def decode? (input : Bytes) : Option String :=
  String.fromUTF8? input.toByteArray

/-- Collects the characters in front of `done`, latest first, with U+FFFD for each fault. -/
def lossyFrom (done : List Char) : (skip : Nat) → Bytes → List Char
  | _, [] => done.reverse
  | skip + 1, _ :: rest => lossyFrom done skip rest
  | 0, b :: rest =>
    match front b rest with
    | .scalar c n => lossyFrom (c :: done) (n - 1) rest
    | .invalid n => lossyFrom ('\uFFFD' :: done) (n - 1) rest
    | .truncated => ('\uFFFD' :: done).reverse

/-- The text with these bytes, every fault replaced by U+FFFD. -/
def lossy (input : Bytes) : String :=
  match decode? input with
  | some text => text
  | none => String.ofList (lossyFrom [] 0 input)

end ClientIdentity.Utf8
