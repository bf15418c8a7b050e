import ClientIdentity.Curve.Modular
import ClientIdentity.Hash.Sha512

namespace ClientIdentity.Ed25519

def prime : Nat := Nat.pow 2 255 - 19

/-- The number of multiples of the base point. -/
def order : Nat := Nat.pow 2 252 + 27742317777372353535851937790883648493

/-- The coefficient d, -121665 / 121666. -/
def coefficient : Nat :=
  37095705934669439343138083508754565189542113879843219016388785533085940283555

/-- A square root of -1. -/
def rootOfMinusOne : Nat :=
  19681161376707505956807079304988542015446066515923890162744021073123829784752

/-- A point as a quadruple. -/
structure Point where
  x : Nat
  y : Nat
  z : Nat
  t : Nat

def Point.neutral : Point := ⟨0, 1, 1, 0⟩

/-- The point with these coordinates. -/
def Point.ofCoordinates (x y : Nat) : Point :=
  ⟨x, y, 1, x * y % prime⟩

def Point.base : Point :=
  .ofCoordinates 15112221349535400772501151409588531511454012693041857206046113283949847762202
    46316835694926478169428394003475163141307993866256225615783033603165251855960

/-- The sum of two points; the formula holds for all of them. -/
def Point.add (q r : Point) : Point :=
  let a := Modular.sub prime q.y q.x * Modular.sub prime r.y r.x % prime
  let b := (q.y + q.x) * (r.y + r.x) % prime
  let c := 2 * q.t * r.t % prime * coefficient % prime
  let d := 2 * q.z * r.z % prime
  let e := Modular.sub prime b a
  let f := Modular.sub prime d c
  let g := (d + c) % prime
  let h := (b + a) % prime
  ⟨e * f % prime, g * h % prime, f * g % prime, e * h % prime⟩

/-- The opposite point. -/
def Point.neg (q : Point) : Point :=
  ⟨(prime - q.x) % prime, q.y, q.z, (prime - q.t) % prime⟩

/-- A multiple of a point. -/
def Point.multiply (n : Nat) (q : Point) : Point :=
  (Modular.digits n).foldl (fun result digit =>
    let twice := result.add result
    if digit then twice.add q else twice) Point.neutral

/-- The number whose little-endian digits to base 256 are the input. -/
def toNat (input : Bytes) : Nat :=
  Bytes.toNat input.reverse

/-- The 32 little-endian digits to base 256. -/
def ofNat (n : Nat) : Bytes :=
  (Bytes.ofNat 32 n).reverse

/-- The second coordinate, with the parity of the first one in the top bit. -/
def Point.toBytes (q : Point) : Bytes :=
  let inverse := Modular.inverse prime q.z
  let x := q.x * inverse % prime
  let y := q.y * inverse % prime
  ofNat (y + x % 2 * Nat.pow 2 255)

/-- A square root of u / v, if there is one. -/
def rootOfQuotient? (u v : Nat) : Option Nat :=
  let v3 := v * v % prime * v % prime
  let v7 := v3 * v3 % prime * v % prime
  let r := u * v3 % prime * Modular.power prime (u * v7 % prime) ((prime - 5) / 8) % prime
  let check := v * r % prime * r % prime
  if check = u then some r
  else if check = (prime - u) % prime then some (r * rootOfMinusOne % prime)
  else none

/-- The point with this written form. -/
def Point.ofBytes? (input : Bytes) : Option Point :=
  let n := toNat input
  let y := n % Nat.pow 2 255
  let parity := n / Nat.pow 2 255
  let yy := y * y % prime
  if input.length = 32 ∧ y < prime then
    match rootOfQuotient? (Modular.sub prime yy 1) ((coefficient * yy + 1) % prime) with
    | none => none
    | some r =>
      if r = 0 ∧ parity = 1 then none
      else some (.ofCoordinates (if r % 2 = parity then r else prime - r) y)
  else
    none

/-- The secret scalar of a seed's digest: its first half with the three low bits and the top bit
cleared and the bit below the top one set. -/
def scalar (digest : Bytes) : Nat :=
  let n := toNat (digest.take 32)
  Nat.pow 2 254 + n % Nat.pow 2 254 / 8 * 8

/-- The public key of a seed of 32 bytes. -/
def publicKey (seed : Bytes) : Bytes :=
  (Point.multiply (scalar (Sha512.digest seed)) Point.base).toBytes

/-- The number below the order that a digest stands for. -/
def reduce (digest : Bytes) : Nat :=
  toNat digest % order

/-- The signature of a message by a seed's key. -/
def sign (seed message : Bytes) : Bytes :=
  let digest := Sha512.digest seed
  let nonce := reduce (Sha512.digest (digest.drop 32 ++ message))
  let commitment := (Point.multiply nonce Point.base).toBytes
  let challenge := reduce (Sha512.digest (commitment ++ publicKey seed ++ message))
  commitment ++ ofNat ((nonce + challenge * scalar digest) % order)

/-- Whether a signature of a message belongs to a public key. -/
def verify (key message signature : Bytes) : Bool :=
  let commitment := signature.take 32
  let response := toNat (signature.drop 32)
  match Point.ofBytes? key with
  | none => false
  | some point =>
    let challenge := reduce (Sha512.digest (commitment ++ key ++ message))
    let expected := (Point.multiply response Point.base).add (Point.multiply challenge point.neg)
    signature.length = 64 && response < order && expected.toBytes == commitment

end ClientIdentity.Ed25519
