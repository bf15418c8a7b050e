import ClientIdentity.Bytes

namespace ClientIdentity.Der

/-- The tags that keys and certificates use. -/
inductive Tag where
  | boolean
  | integer
  | bitString
  | octetString
  | null
  | objectIdentifier
  | utf8String
  | utcTime
  | generalizedTime
  | sequence
  | set
  /-- A context-specific tag on a simple value. -/
  | simple (number : BitVec 5)
  /-- A context-specific tag around other elements. -/
  | wrapper (number : BitVec 5)
  deriving DecidableEq, Repr

/-- The byte that stands for a tag. -/
def Tag.byte : Tag → UInt8
  | .boolean => 0x01
  | .integer => 0x02
  | .bitString => 0x03
  | .octetString => 0x04
  | .null => 0x05
  | .objectIdentifier => 0x06
  | .utf8String => 0x0C
  | .utcTime => 0x17
  | .generalizedTime => 0x18
  | .sequence => 0x30
  | .set => 0x31
  | .simple number => (0x80 + number.toNat).toUInt8
  | .wrapper number => (0xA0 + number.toNat).toUInt8

/-- The shortest form of a length. -/
def encodeLength (n : Nat) : Bytes :=
  if n < 128 then [n.toUInt8]
  else
    let digits := Bytes.minimal n
    (128 + digits.length).toUInt8 :: digits

/-- An element. -/
def encode (tag : Tag) (contents : Bytes) : Bytes :=
  tag.byte :: (encodeLength contents.length ++ contents)

/-- The length that an input begins with, and what follows it. A form longer than necessary is
refused. -/
def readLength? : Bytes → Option (Nat × Bytes)
  | [] => none
  | first :: rest =>
    if first < 0x80 then some (first.toNat, rest)
    else if first = 0x81 then
      match rest with
      | n :: rest => if n < 0x80 then none else some (n.toNat, rest)
      | [] => none
    else if first = 0x82 then
      match rest with
      | high :: low :: rest =>
        let n := high.toNat * 256 + low.toNat
        if n < 256 then none else some (n, rest)
      | _ => none
    else none

/-- The longest contents of an element of a key. -/
def keyLimit : Nat := 65535

/-- The longest contents of an element of a certificate. -/
def certificateLimit : Nat := 65534

/-- The contents of the element that an input begins with, which must have the given tag and at
most `limit` bytes, and what follows it. -/
def read? (limit : Nat) (tag : Tag) : Bytes → Option (Bytes × Bytes)
  | [] => none
  | first :: rest =>
    if first ≠ tag.byte then none
    else
      match readLength? rest with
      | none => none
      | some (n, rest) =>
        if n ≤ limit ∧ n ≤ rest.length then some (rest.take n, rest.drop n) else none

theorem readLength?_length_lt {input rest : Bytes} {n : Nat}
    (h : readLength? input = some (n, rest)) : rest.length < input.length := by
  unfold readLength? at h
  grind

/-- The rest that `read?` returns is shorter than its input. -/
theorem read?_length_lt {limit : Nat} {tag : Tag} {input contents rest : Bytes}
    (h : read? limit tag input = some (contents, rest)) : rest.length < input.length := by
  unfold read? at h
  split at h
  · simp at h
  · split at h
    · simp at h
    · split at h
      · simp at h
      · rename_i hlength
        have := readLength?_length_lt hlength
        split at h
        · simp only [Option.some.injEq, Prod.mk.injEq] at h
          obtain ⟨-, rfl⟩ := h
          simp only [List.length_cons, List.length_drop]
          omega
        · simp at h

end ClientIdentity.Der
