import ClientIdentity.Hash.Padding

namespace ClientIdentity.Md5

/-- The bytes of a block. -/
def blockSize : Nat := 64

/-- One word for each round: the first 32 bits after the point of |sin n|, n counted from 1. -/
def roundWords : List UInt32 := [
  0xd76aa478, 0xe8c7b756, 0x242070db, 0xc1bdceee, 0xf57c0faf, 0x4787c62a, 0xa8304613, 0xfd469501,
  0x698098d8, 0x8b44f7af, 0xffff5bb1, 0x895cd7be, 0x6b901122, 0xfd987193, 0xa679438e, 0x49b40821,
  0xf61e2562, 0xc040b340, 0x265e5a51, 0xe9b6c7aa, 0xd62f105d, 0x02441453, 0xd8a1e681, 0xe7d3fbc8,
  0x21e1cde6, 0xc33707d6, 0xf4d50d87, 0x455a14ed, 0xa9e3e905, 0xfcefa3f8, 0x676f02d9, 0x8d2a4c8a,
  0xfffa3942, 0x8771f681, 0x6d9d6122, 0xfde5380c, 0xa4beea44, 0x4bdecfa9, 0xf6bb4b60, 0xbebfbc70,
  0x289b7ec6, 0xeaa127fa, 0xd4ef3085, 0x04881d05, 0xd9d4d039, 0xe6db99e5, 0x1fa27cf8, 0xc4ac5665,
  0xf4292244, 0x432aff97, 0xab9423a7, 0xfc93a039, 0x655b59c3, 0x8f0ccc92, 0xffeff47d, 0x85845dd1,
  0x6fa87e4f, 0xfe2ce6e0, 0xa3014314, 0x4e0811a1, 0xf7537e82, 0xbd3af235, 0x2ad7d2bb, 0xeb86d391]

/-- The four words between two blocks. -/
structure State where
  a : UInt32
  b : UInt32
  c : UInt32
  d : UInt32

/-- The words before the first block. -/
def State.initial : State :=
  ⟨0x67452301, 0xefcdab89, 0x98badcfe, 0x10325476⟩

/-- The four rotations that the rounds of each quarter take in turn. -/
def rotations (quarter : Nat) : List UInt32 :=
  match quarter with
  | 0 => [7, 12, 17, 22]
  | 1 => [5, 9, 14, 20]
  | 2 => [4, 11, 16, 23]
  | _ => [6, 10, 15, 21]

/-- The place in the block of the word that a round takes. -/
def wordPlace (quarter round : Nat) : Nat :=
  match quarter with
  | 0 => round
  | 1 => (5 * round + 1) % 16
  | 2 => (3 * round + 5) % 16
  | _ => (7 * round) % 16

/-- The mixing function of a quarter. -/
def mix (quarter : Nat) (b c d : UInt32) : UInt32 :=
  match quarter with
  | 0 => (b &&& c) ||| (~~~b &&& d)
  | 1 => (d &&& b) ||| (~~~d &&& c)
  | 2 => b ^^^ c ^^^ d
  | _ => c ^^^ (b ||| ~~~d)

/-- One round, with its number, its word and the words of the block. -/
def State.round (block : List UInt32) (s : State) (round : Nat × UInt32) : State :=
  let quarter := round.1 / 16
  let message := block.getD (wordPlace quarter round.1) 0
  let n := (rotations quarter).getD (round.1 % 4) 0
  let sum := s.a + mix quarter s.b s.c s.d + round.2 + message
  ⟨s.d, s.b + ((sum <<< n) ||| (sum >>> (32 - n))), s.b, s.c⟩

/-- The rounds in their order, with their words. -/
def rounds : List (Nat × UInt32) :=
  (List.range 64).zip roundWords

/-- The words of a block, little-endian. -/
def words (block : Bytes) : List UInt32 :=
  (Bytes.chunks 4 block).map fun digits => UInt32.ofNat (Bytes.toNat digits.reverse)

/-- Adds a block to the state. -/
def State.absorb (s : State) (block : Bytes) : State :=
  let t := rounds.foldl (State.round (words block)) s
  ⟨s.a + t.a, s.b + t.b, s.c + t.c, s.d + t.d⟩

/-- The four words, little-endian. -/
def State.toBytes (s : State) : Bytes :=
  [s.a, s.b, s.c, s.d].flatMap fun word => (Bytes.ofNat 4 word.toNat).reverse

/-- The 16 bytes of the message's digest. -/
def digest (message : Bytes) : Bytes :=
  let padded := Hash.pad blockSize (Bytes.ofNat 8 (8 * message.length)).reverse message
  ((Bytes.chunks blockSize padded).foldl State.absorb State.initial).toBytes

end ClientIdentity.Md5
