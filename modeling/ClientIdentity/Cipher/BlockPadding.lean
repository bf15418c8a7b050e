import ClientIdentity.Bytes

namespace ClientIdentity.BlockPadding

/-- The number of padding bytes of an input of `length` bytes. -/
def count (block length : Nat) : Nat :=
  block - length % block

/-- The input with its padding. -/
def pad (block : Nat) (input : Bytes) : Bytes :=
  input ++ List.replicate (count block input.length) (count block input.length).toUInt8

/-- The input without its padding, which is checked in full. -/
def unpad? (block : Nat) (input : Bytes) : Option Bytes :=
  match input.getLast? with
  | none => none
  | some last =>
    let n := last.toNat
    if 0 < n ∧ n ≤ block ∧ n ≤ input.length ∧
        input.drop (input.length - n) = List.replicate n last then
      some (input.take (input.length - n))
    else
      none

end ClientIdentity.BlockPadding
