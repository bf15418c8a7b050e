import ClientIdentity.Hash.Padding

namespace ClientIdentity.Sha2

/-- The words that a member of the family computes with. -/
class Word (α : Type) extends Add α, XorOp α, AndOp α, Complement α where
  /-- The bytes of a word. -/
  size : Nat
  rotateRight : α → α → α
  shiftRight : α → α → α
  ofNat : Nat → α
  toNat : α → Nat

instance : Word UInt32 where
  size := 4
  rotateRight x places := (x >>> places) ||| (x <<< (32 - places))
  shiftRight x places := x >>> places
  ofNat := UInt32.ofNat
  toNat := UInt32.toNat

instance : Word UInt64 where
  size := 8
  rotateRight x places := (x >>> places) ||| (x <<< (64 - places))
  shiftRight x places := x >>> places
  ofNat := UInt64.ofNat
  toNat := UInt64.toNat

/-- What tells the members of the family apart. -/
structure Variant (α : Type) where
  /-- One word for each round. -/
  roundWords : List α
  /-- The eight words before the first block. -/
  initialWords : List α
  /-- The rotations applied to the first state word. -/
  bigRotations0 : α × α × α
  /-- The rotations applied to the fifth state word. -/
  bigRotations1 : α × α × α
  /-- Two rotations and a shift for the message word fifteen places back. -/
  smallRotations0 : α × α × α
  /-- Two rotations and a shift for the message word two places back. -/
  smallRotations1 : α × α × α

/-- The eight words between two blocks. -/
structure State (α : Type) where
  a : α
  b : α
  c : α
  d : α
  e : α
  f : α
  g : α
  h : α

variable {α : Type} [Word α]

def State.ofWords (words : List α) : State α :=
  let word (i : Nat) := words.getD i (Word.ofNat 0)
  ⟨word 0, word 1, word 2, word 3, word 4, word 5, word 6, word 7⟩

def State.toWords (s : State α) : List α :=
  [s.a, s.b, s.c, s.d, s.e, s.f, s.g, s.h]

@[inline]
def bigSigma (rotations : α × α × α) (x : α) : α :=
  Word.rotateRight x rotations.1 ^^^ Word.rotateRight x rotations.2.1 ^^^
    Word.rotateRight x rotations.2.2

@[inline]
def smallSigma (rotations : α × α × α) (x : α) : α :=
  Word.rotateRight x rotations.1 ^^^ Word.rotateRight x rotations.2.1 ^^^
    Word.shiftRight x rotations.2.2

/-- One round with the round's word and the message's word. -/
@[specialize]
def round (v : Variant α) (s : State α) (constant message : α) : State α :=
  let choice := (s.e &&& s.f) ^^^ (~~~s.e &&& s.g)
  let majority := (s.a &&& s.b) ^^^ (s.a &&& s.c) ^^^ (s.b &&& s.c)
  let t1 := s.h + bigSigma v.bigRotations1 s.e + choice + constant + message
  let t2 := bigSigma v.bigRotations0 s.a + majority
  ⟨t1 + t2, s.a, s.b, s.c, s.d + t1, s.e, s.f, s.g⟩

/-- The message word that comes sixteen places after the first word of the window. -/
@[specialize]
def nextWord (v : Variant α) (window : List α) : α :=
  let word (i : Nat) := window.getD i (Word.ofNat 0)
  smallSigma v.smallRotations1 (word 14) + word 9 + smallSigma v.smallRotations0 (word 1) + word 0

/-- Runs the rounds; the window holds the next sixteen words of the message schedule. -/
@[specialize]
def rounds (v : Variant α) : (s : State α) → (constants window : List α) → State α
  | s, constant :: constants, message :: window =>
    rounds v (round v s constant message) constants (window ++ [nextWord v (message :: window)])
  | s, _, _ => s

/-- The words of a block, big-endian. -/
@[specialize]
def wordsOf (block : Bytes) : List α :=
  (Bytes.chunks (Word.size α) block).map fun digits => Word.ofNat (Bytes.toNat digits)

/-- Adds a block to the state. -/
@[specialize]
def absorb (v : Variant α) (s : State α) (block : Bytes) : State α :=
  State.ofWords (List.zipWith (· + ·) s.toWords (rounds v s v.roundWords (wordsOf block)).toWords)

/-- The digest of the message: the eight words after its last block, big-endian. -/
@[specialize]
def digest (v : Variant α) (message : Bytes) : Bytes :=
  let size := Word.size α
  let padded := Hash.pad (16 * size) (Bytes.ofNat (2 * size) (8 * message.length)) message
  let final := (Bytes.chunks (16 * size) padded).foldl (absorb v) (State.ofWords v.initialWords)
  final.toWords.flatMap fun word => Bytes.ofNat size (Word.toNat word)

end ClientIdentity.Sha2
