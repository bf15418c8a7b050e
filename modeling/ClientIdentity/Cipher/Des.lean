import ClientIdentity.Cipher.Block

namespace ClientIdentity.Des

/-- Bits in the order in which the standard numbers them. -/
abbrev Bits (n : Nat) := Vector Bool n

/-- Takes from each place of the table the bit that stands there. -/
def select {n m : Nat} (table : Vector (Fin n) m) (bits : Bits n) : Bits m :=
  table.map fun place => bits[place]

/-- The bits of eight bytes; bytes past the end count as zero. -/
def bitsOf (input : Bytes) : Bits 64 :=
  Vector.ofFn fun i => (input.getD (i.val / 8) 0).toNat.testBit (7 - i.val % 8)

/-- The number with these binary digits, the highest first. -/
def value (bits : List Bool) : Nat :=
  bits.foldl (fun n bit => 2 * n + bit.toNat) 0

/-- The number with these binary digits, the lowest first. -/
def reversedValue (bits : List Bool) : Nat :=
  bits.foldr (fun bit n => 2 * n + bit.toNat) 0

/-- The bytes that the bits make up. -/
def bytesOf (bits : Bits 64) : Bytes :=
  (List.range 8).map fun i => (value ((bits.toList.drop (8 * i)).take 8)).toUInt8

/-- The places of the bits before the first round. -/
def initialTable : Vector (Fin 64) 64 := #v[
  57, 49, 41, 33, 25, 17, 9, 1, 59, 51, 43, 35, 27, 19, 11, 3,
  61, 53, 45, 37, 29, 21, 13, 5, 63, 55, 47, 39, 31, 23, 15, 7,
  56, 48, 40, 32, 24, 16, 8, 0, 58, 50, 42, 34, 26, 18, 10, 2,
  60, 52, 44, 36, 28, 20, 12, 4, 62, 54, 46, 38, 30, 22, 14, 6]

/-- The places of the bits after the last round. -/
def finalTable : Vector (Fin 64) 64 := #v[
  39, 7, 47, 15, 55, 23, 63, 31, 38, 6, 46, 14, 54, 22, 62, 30,
  37, 5, 45, 13, 53, 21, 61, 29, 36, 4, 44, 12, 52, 20, 60, 28,
  35, 3, 43, 11, 51, 19, 59, 27, 34, 2, 42, 10, 50, 18, 58, 26,
  33, 1, 41, 9, 49, 17, 57, 25, 32, 0, 40, 8, 48, 16, 56, 24]

/-- The places of the bits after the substitution. -/
def permutationTable : Vector (Fin 32) 32 := #v[
  15, 6, 19, 20, 28, 11, 27, 16, 0, 14, 22, 25, 4, 17, 30, 9,
  1, 7, 23, 13, 31, 26, 2, 8, 18, 12, 29, 5, 21, 10, 3, 24]

/-- The places of the key bits that count, without the parity bits. -/
def keyTable : Vector (Fin 64) 56 := #v[
  56, 48, 40, 32, 24, 16, 8, 0, 57, 49, 41, 33, 25, 17,
  9, 1, 58, 50, 42, 34, 26, 18, 10, 2, 59, 51, 43, 35,
  62, 54, 46, 38, 30, 22, 14, 6, 61, 53, 45, 37, 29, 21,
  13, 5, 60, 52, 44, 36, 28, 20, 12, 4, 27, 19, 11, 3]

/-- The places of the bits of a round key among the rotated key bits. -/
def roundKeyTable : Vector (Fin 56) 48 := #v[
  13, 16, 10, 23, 0, 4, 2, 27, 14, 5, 20, 9, 22, 18, 11, 3,
  25, 7, 15, 6, 26, 19, 12, 1, 40, 51, 30, 36, 46, 54, 29, 39,
  50, 44, 32, 47, 43, 48, 38, 55, 33, 52, 45, 41, 49, 35, 28, 31]

/-- The eight substitutions from six bits to four, row by row. -/
def boxes : List (Array Nat) := [
  #[14, 4, 13, 1, 2, 15, 11, 8, 3, 10, 6, 12, 5, 9, 0, 7,
    0, 15, 7, 4, 14, 2, 13, 1, 10, 6, 12, 11, 9, 5, 3, 8,
    4, 1, 14, 8, 13, 6, 2, 11, 15, 12, 9, 7, 3, 10, 5, 0,
    15, 12, 8, 2, 4, 9, 1, 7, 5, 11, 3, 14, 10, 0, 6, 13],
  #[15, 1, 8, 14, 6, 11, 3, 4, 9, 7, 2, 13, 12, 0, 5, 10,
    3, 13, 4, 7, 15, 2, 8, 14, 12, 0, 1, 10, 6, 9, 11, 5,
    0, 14, 7, 11, 10, 4, 13, 1, 5, 8, 12, 6, 9, 3, 2, 15,
    13, 8, 10, 1, 3, 15, 4, 2, 11, 6, 7, 12, 0, 5, 14, 9],
  #[10, 0, 9, 14, 6, 3, 15, 5, 1, 13, 12, 7, 11, 4, 2, 8,
    13, 7, 0, 9, 3, 4, 6, 10, 2, 8, 5, 14, 12, 11, 15, 1,
    13, 6, 4, 9, 8, 15, 3, 0, 11, 1, 2, 12, 5, 10, 14, 7,
    1, 10, 13, 0, 6, 9, 8, 7, 4, 15, 14, 3, 11, 5, 2, 12],
  #[7, 13, 14, 3, 0, 6, 9, 10, 1, 2, 8, 5, 11, 12, 4, 15,
    13, 8, 11, 5, 6, 15, 0, 3, 4, 7, 2, 12, 1, 10, 14, 9,
    10, 6, 9, 0, 12, 11, 7, 13, 15, 1, 3, 14, 5, 2, 8, 4,
    3, 15, 0, 6, 10, 1, 13, 8, 9, 4, 5, 11, 12, 7, 2, 14],
  #[2, 12, 4, 1, 7, 10, 11, 6, 8, 5, 3, 15, 13, 0, 14, 9,
    14, 11, 2, 12, 4, 7, 13, 1, 5, 0, 15, 10, 3, 9, 8, 6,
    4, 2, 1, 11, 10, 13, 7, 8, 15, 9, 12, 5, 6, 3, 0, 14,
    11, 8, 12, 7, 1, 14, 2, 13, 6, 15, 0, 9, 10, 4, 5, 3],
  #[12, 1, 10, 15, 9, 2, 6, 8, 0, 13, 3, 4, 14, 7, 5, 11,
    10, 15, 4, 2, 7, 12, 9, 5, 6, 1, 13, 14, 0, 11, 3, 8,
    9, 14, 15, 5, 2, 8, 12, 3, 7, 0, 4, 10, 1, 13, 11, 6,
    4, 3, 2, 12, 9, 5, 15, 10, 11, 14, 1, 7, 6, 0, 8, 13],
  #[4, 11, 2, 14, 15, 0, 8, 13, 3, 12, 9, 7, 5, 10, 6, 1,
    13, 0, 11, 7, 4, 9, 1, 10, 14, 3, 5, 12, 2, 15, 8, 6,
    1, 4, 11, 13, 12, 3, 7, 14, 10, 15, 6, 8, 0, 5, 9, 2,
    6, 11, 13, 8, 1, 4, 10, 7, 9, 5, 0, 15, 14, 2, 3, 12],
  #[13, 2, 8, 4, 6, 15, 11, 1, 10, 9, 3, 14, 5, 0, 12, 7,
    1, 15, 13, 8, 10, 3, 7, 4, 12, 5, 6, 11, 0, 14, 9, 2,
    7, 11, 4, 1, 9, 12, 14, 2, 0, 6, 10, 13, 15, 3, 5, 8,
    2, 1, 14, 7, 4, 10, 8, 13, 15, 12, 9, 0, 3, 5, 6, 11]]

/-- The number that a box gives for six bits, the first of which is the lowest: the outer two
choose the row. -/
def lookUp (box : Array Nat) (six : Nat) : Nat :=
  let row := value [six.testBit 0, six.testBit 5]
  let column := value [six.testBit 1, six.testBit 2, six.testBit 3, six.testBit 4]
  box.getD (16 * row + column) 0

/-- A half of a block. -/
abbrev Half := UInt32

namespace Half

def ofBits (bits : Bits 32) : Half :=
  UInt32.ofNat (reversedValue bits.toList)

def toBits (half : Half) : Bits 32 :=
  Vector.ofFn fun i => half.toNat.testBit i

def turnLeft (half : Half) (places : UInt32) : Half :=
  (half <<< places) ||| (half >>> (32 - places))

end Half

/-- What a box alone contributes to the result of a round for each six bits: its four bits stand at
the places of group `group` and all others are zero, before the permutation. -/
def contributions (group : Nat) (box : Array Nat) : Array Half :=
  (Array.range 64).map fun six =>
    let found := lookUp box six
    Half.ofBits (select permutationTable (Vector.ofFn fun place =>
      place.val / 4 == group && found.testBit (3 - place.val % 4)))

/-- The contributions of all boxes. -/
def allContributions : List (Array Half) :=
  boxes.mapIdx contributions

/-- A round key: six bits for each box, the first of which is the lowest. -/
abbrev RoundKey := List UInt32

/-- The round key that the bits make up. -/
def RoundKey.ofBits (bits : Bits 48) : RoundKey :=
  (List.range 8).map fun i => UInt32.ofNat (reversedValue ((bits.toList.drop (6 * i)).take 6))

/-- Combines what the boxes contribute. Each box looks at the lowest six bits of the half, which
turns four places on from box to box, so that neighbouring boxes share two bits. -/
def combine : (contributions : List (Array Half)) → RoundKey → Half → Half
  | table :: tables, six :: key, half =>
    table.getD ((half &&& 63) ^^^ six).toNat 0 ^^^ combine tables key (half.turnLeft 28)
  | _, _, _ => 0

/-- The function of a round. The first box begins with the last bit of the half. -/
def mix (key : RoundKey) (half : Half) : Half :=
  combine allContributions key (half.turnLeft 1)

/-- The two halves of a block. -/
structure Halves where
  left : Half
  right : Half

def Halves.ofBits (bits : Bits 64) : Halves :=
  ⟨Half.ofBits (Vector.ofFn fun i => bits[i.val]),
    Half.ofBits (Vector.ofFn fun i => bits[i.val + 32])⟩

def Halves.toBits (h : Halves) : Bits 64 :=
  h.left.toBits ++ h.right.toBits

def Halves.swap (h : Halves) : Halves :=
  ⟨h.right, h.left⟩

/-- One round of the network. -/
def Halves.round (h : Halves) (key : RoundKey) : Halves :=
  ⟨h.right, h.left ^^^ mix key h.right⟩

/-- The network between the two permutations. -/
def crypt (keys : List RoundKey) (bits : Bits 64) : Bits 64 :=
  let halves := keys.foldl Halves.round (Halves.ofBits (select initialTable bits))
  select finalTable halves.swap.toBits

/-- The places by which the key halves have turned to the left in each round. -/
def turns : List Nat :=
  [1, 2, 4, 6, 8, 10, 12, 14, 15, 17, 19, 21, 23, 25, 27, 28]

/-- The key bits with both halves turned to the left. -/
def turn (places : Nat) (bits : Bits 56) : Bits 56 :=
  Vector.ofFn fun i =>
    let half := i.val / 28 * 28
    bits.toArray.getD (half + (i.val % 28 + places) % 28) false

/-- The round keys of a key of eight bytes. -/
def roundKeys (key : Bytes) : List RoundKey :=
  turns.map fun places =>
    RoundKey.ofBits (select roundKeyTable (turn places (select keyTable (bitsOf key))))

/-- Encrypts a block under round keys. -/
def encryptBlock (keys : List RoundKey) (block : Bytes) : Bytes :=
  bytesOf (crypt keys (bitsOf block))

/-- Decrypts a block under round keys. -/
def decryptBlock (keys : List RoundKey) (block : Bytes) : Bytes :=
  bytesOf (crypt keys.reverse (bitsOf block))

/-- DES under a key of eight bytes. -/
def cipher (key : Bytes) : BlockCipher :=
  let keys := roundKeys key
  { blockSize := 8
    encrypt := encryptBlock keys
    decrypt := decryptBlock keys }

/-- DES. Eight of the 64 key bits are parity bits, which no round key uses. -/
def algorithm : BlockAlgorithm := ⟨8, 8, cipher⟩

/-- Triple DES under a key of three times eight bytes: encryption with the first, decryption with
the second, encryption with the third. -/
def tripleCipher (key : Bytes) : BlockCipher :=
  let first := roundKeys (key.take 8)
  let second := roundKeys ((key.drop 8).take 8)
  let third := roundKeys (key.drop 16)
  { blockSize := 8
    encrypt := fun block => encryptBlock third (decryptBlock second (encryptBlock first block))
    decrypt := fun block => decryptBlock first (encryptBlock second (decryptBlock third block)) }

/-- Triple DES with three independent keys. -/
def tripleAlgorithm : BlockAlgorithm := ⟨24, 8, tripleCipher⟩

end ClientIdentity.Des
