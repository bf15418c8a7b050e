import ClientIdentity.Bytes

namespace ClientIdentity.Base64

/-- Why a text is not canonical base64. -/
inductive Fault where
  /-- A byte outside the alphabet, or a padding byte where none may stand. -/
  | invalidByte (byte : UInt8) (position : Nat)
  /-- A single symbol is left after complete groups. -/
  | invalidLength (length : Nat)
  /-- The last group has not as many padding bytes as it needs. -/
  | invalidPadding
  /-- The last symbol has bits that belong to no byte. -/
  | invalidLastSymbol (byte : UInt8) (position : Nat)
  deriving DecidableEq, Repr

def Fault.message : Fault → String
  | .invalidByte byte position => s!"Invalid symbol {byte.toNat}, offset {position}."
  | .invalidLength length => s!"Invalid input length: {length}"
  | .invalidPadding => "Invalid padding"
  | .invalidLastSymbol byte position => s!"Invalid last symbol {byte.toNat}, offset {position}."

/-- The padding byte. -/
def pad : UInt8 := 61

/-- The byte that stands for a value below 64. -/
def symbol (value : Nat) : UInt8 :=
  if value < 26 then (65 + value).toUInt8
  else if value < 52 then (71 + value).toUInt8
  else if value < 62 then (value - 4).toUInt8
  else if value = 62 then 43
  else 47

/-- The value that a byte stands for. -/
def value? (b : UInt8) : Option Nat :=
  if 65 ≤ b ∧ b ≤ 90 then some (b.toNat - 65)
  else if 97 ≤ b ∧ b ≤ 122 then some (b.toNat - 71)
  else if 48 ≤ b ∧ b ≤ 57 then some (b.toNat + 4)
  else if b = 43 then some 62
  else if b = 47 then some 63
  else none

/-- Whether a byte stands for a value. -/
def isSymbol (b : UInt8) : Bool :=
  (value? b).isSome

/-- The canonical text of the bytes. -/
def encode : Bytes → Bytes
  | [] => []
  | [a] => [symbol (a.toNat / 4), symbol (a.toNat % 4 * 16), pad, pad]
  | [a, b] =>
    [symbol (a.toNat / 4), symbol (a.toNat % 4 * 16 + b.toNat / 16), symbol (b.toNat % 16 * 4), pad]
  | a :: b :: c :: rest =>
    symbol (a.toNat / 4) :: symbol (a.toNat % 4 * 16 + b.toNat / 16) ::
      symbol (b.toNat % 16 * 4 + c.toNat / 64) :: symbol (c.toNat % 64) :: encode rest

/-- The bytes that the values of complete groups stand for; an incomplete group at the end gives
the bytes that it completes. -/
def ofValues : List Nat → Bytes
  | a :: b :: c :: d :: rest =>
    (a * 4 + b / 16).toUInt8 :: (b % 16 * 16 + c / 4).toUInt8 :: (c % 4 * 64 + d).toUInt8 ::
      ofValues rest
  | [a, b, c] => [(a * 4 + b / 16).toUInt8, (b % 16 * 16 + c / 4).toUInt8]
  | [a, b] => [(a * 4 + b / 16).toUInt8]
  | _ => []

/-- The number of bytes in the last group of an input of this length: a whole group if the length
is a multiple of four. -/
def lastGroupLength (length : Nat) : Nat :=
  if length % 4 = 0 then min 4 length else length % 4

/-- The first byte that is no symbol, with its position counted from `start`. -/
def strayByte? (start : Nat) (input : Bytes) : Option (UInt8 × Nat) :=
  match input.findIdx? (fun b => !isSymbol b) with
  | none => none
  | some i => some (input.getD i 0, start + i)

/-- The first fault in the bytes of the last group, read from left to right: `index` is the place
in the group, `start` the position of the group, `padAt` the place of its first padding byte. -/
def lastGroupFault? (start : Nat) : (index : Nat) → (padAt : Option Nat) → Bytes → Option Fault
  | _, _, [] => none
  | index, none, b :: rest =>
    if b = pad then
      if index < 2 then some (.invalidByte b (start + index))
      else lastGroupFault? start (index + 1) (some index) rest
    else if isSymbol b then lastGroupFault? start (index + 1) none rest
    else some (.invalidByte b (start + index))
  | index, some place, b :: rest =>
    if b = pad then lastGroupFault? start (index + 1) (some place) rest
    else some (.invalidByte pad (start + place))

/-- The number of low bits of the last of `count` values that belong to no byte. -/
def leftoverBits (count : Nat) : Nat :=
  if count = 2 then 4 else if count = 3 then 2 else 0

/-- Decodes the last group, which begins at `start`. -/
def decodeLastGroup (start : Nat) (group : Bytes) : Except Fault Bytes :=
  match lastGroupFault? start 0 none group with
  | some fault => .error fault
  | none =>
    let symbols := group.filter isSymbol
    let values := symbols.filterMap value?
    if group.isEmpty then .ok []
    else if symbols.length < 2 then .error (.invalidLength (start + symbols.length))
    else if group.length % 4 ≠ 0 then .error .invalidPadding
    else if values.getLastD 0 % Nat.pow 2 (leftoverBits symbols.length) ≠ 0 then
      .error (.invalidLastSymbol (symbols.getLastD 0) (start + symbols.length - 1))
    else .ok (ofValues values)

/-- The bytes that a canonical text stands for, or its first fault. -/
def decode (input : Bytes) : Except Fault Bytes :=
  let start := input.length - lastGroupLength input.length
  let body := input.take start
  let lastByte := input.getLastD 0
  if input.length % 4 = 1 ∧ lastByte ≠ pad ∧ !isSymbol lastByte then
    .error (.invalidByte lastByte (input.length - 1))
  else
    match strayByte? 0 body with
    | some (byte, position) => .error (.invalidByte byte position)
    | none =>
      match decodeLastGroup start (input.drop start) with
      | .error fault => .error fault
      | .ok lastBytes => .ok (ofValues (body.filterMap value?) ++ lastBytes)

end ClientIdentity.Base64
