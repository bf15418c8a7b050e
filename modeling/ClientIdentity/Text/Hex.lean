import ClientIdentity.Bytes

namespace ClientIdentity.Hex

/-- The lower-case digit of a value below 16. -/
def digit (value : Nat) : Char :=
  if value < 10 then Char.ofNat (48 + value) else Char.ofNat (87 + value)

/-- The value of a digit of either case. -/
def value? (c : Char) : Option Nat :=
  if '0' ≤ c ∧ c ≤ '9' then some (c.toNat - 48)
  else if 'a' ≤ c ∧ c ≤ 'f' then some (c.toNat - 87)
  else if 'A' ≤ c ∧ c ≤ 'F' then some (c.toNat - 55)
  else none

/-- Two digits for every byte. -/
def encode (input : Bytes) : String :=
  String.ofList (input.flatMap fun b => [digit (b.toNat / 16), digit (b.toNat % 16)])

/-- The bytes that an even number of digits stands for. -/
def decodeChars : List Char → Option Bytes
  | [] => some []
  | [_] => none
  | high :: low :: rest => do
    let h ← value? high
    let l ← value? low
    let bytes ← decodeChars rest
    return (h * 16 + l).toUInt8 :: bytes

/-- The bytes that a text of an even number of digits stands for. -/
def decode? (text : String) : Option Bytes :=
  decodeChars text.toList

end ClientIdentity.Hex
