namespace ClientIdentity

/-- A byte string. -/
abbrev Bytes := List UInt8

namespace Bytes

/-- The position of the first occurrence of `marker`, counted from `start`. -/
def indexFrom (marker : Bytes) (start : Nat) : Bytes → Option Nat
  | [] => if marker.isEmpty then some start else none
  | b :: rest =>
    if marker.isPrefixOf (b :: rest) then some start else indexFrom marker (start + 1) rest

/-- The position of the first occurrence of `marker`. -/
def indexOf? (marker input : Bytes) : Option Nat :=
  indexFrom marker 0 input

theorem indexFrom_lt {marker : Bytes} (hmarker : marker ≠ []) {start i : Nat} {input : Bytes}
    (h : indexFrom marker start input = some i) : start ≤ i ∧ i < start + input.length := by
  induction input generalizing start with
  | nil => simp [indexFrom, hmarker] at h
  | cons b rest ih =>
    unfold indexFrom at h
    split at h
    · simp_all
    · have := ih h
      simp only [List.length_cons]
      omega

/-- A marker that is not empty is found at a position below the length of the input. -/
theorem indexOf?_lt {marker : Bytes} (hmarker : marker ≠ []) {i : Nat} {input : Bytes}
    (h : indexOf? marker input = some i) : i < input.length := by
  simpa using (indexFrom_lt hmarker h).2

/-- What stands before the first occurrence of `marker`, and the input from that occurrence on. -/
def splitAt? (marker input : Bytes) : Option (Bytes × Bytes) :=
  (indexOf? marker input).map fun i => (input.take i, input.drop i)

/-- Whether `input` ends with `ending`. -/
def endsWith (ending input : Bytes) : Bool :=
  ending.isSuffixOf input

/-- The input in consecutive pieces of `size` bytes, the last one possibly shorter. -/
def chunks (size : Nat) (input : Bytes) : List Bytes :=
  if _h : 0 < size ∧ input ≠ [] then
    input.take size :: chunks size (input.drop size)
  else
    []
termination_by input.length
decreasing_by
  have := List.length_pos_iff.mpr _h.2
  simp only [List.length_drop]
  omega

/-- The natural number whose big-endian digits to base 256 are `input`. -/
def toNat (input : Bytes) : Nat :=
  input.foldl (fun n b => n * 256 + b.toNat) 0

/-- The big-endian digits of `n` to base 256, `width` of them; higher digits are dropped. -/
def ofNat : (width n : Nat) → Bytes
  | 0, _ => []
  | width + 1, n => ofNat width (n / 256) ++ [n.toUInt8]

/-- The big-endian digits of `n` to base 256 without leading zeros. -/
def minimal (n : Nat) : Bytes :=
  (ofNat ((Nat.log2 n) / 8 + 1) n).dropWhile (· == 0)

/-- Bytewise exclusive or, as long as the shorter argument. -/
def xor (a b : Bytes) : Bytes :=
  List.zipWith (· ^^^ ·) a b

end Bytes

end ClientIdentity
