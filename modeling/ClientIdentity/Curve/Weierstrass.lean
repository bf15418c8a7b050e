import ClientIdentity.Bytes
import ClientIdentity.Curve.Modular

namespace ClientIdentity.Weierstrass

/-- A curve and its base point. -/
structure Curve where
  prime : Nat
  b : Nat
  baseX : Nat
  baseY : Nat
  /-- The number of multiples of the base point. -/
  order : Nat
  /-- The bytes of a coordinate. -/
  width : Nat

def p256 : Curve where
  prime := 0xffffffff00000001000000000000000000000000ffffffffffffffffffffffff
  b := 0x5ac635d8aa3a93e7b3ebbd55769886bc651d06b0cc53b0f63bce3c3e27d2604b
  baseX := 0x6b17d1f2e12c4247f8bce6e563a440f277037d812deb33a0f4a13945d898c296
  baseY := 0x4fe342e2fe1a7f9b8ee7eb4a7c0f9e162bce33576b315ececbb6406837bf51f5
  order := 0xffffffff00000000ffffffffffffffffbce6faada7179e84f3b9cac2fc632551
  width := 32

def p384 : Curve where
  prime := 0xfffffffffffffffffffffffffffffffffffffffffffffffffffffffffffffffeffffffff0000000000000000ffffffff
  b := 0xb3312fa7e23ee7e4988e056be3f82d19181d9c6efe8141120314088f5013875ac656398d8a2ed19d2a85c8edd3ec2aef
  baseX := 0xaa87ca22be8b05378eb1c71ef320ad746e1d3b628ba79b9859f741e082542a385502f25dbf55296c3a545e3872760ab7
  baseY := 0x3617de4a96262c6f5d9e98bf9292dc29f8f41dbd289a147ce9da3113b5f0b8c00a60b1ce1d7e819d7a431d7c90ea0e5f
  order := 0xffffffffffffffffffffffffffffffffffffffffffffffffc7634d81f4372ddf581a0db248b0a77aecec196accc52973
  width := 48

/-- A point as a triple. -/
structure Point where
  x : Nat
  y : Nat
  z : Nat

/-- The neutral point. -/
def Point.neutral : Point := ⟨1, 1, 0⟩

def Curve.base (c : Curve) : Point := ⟨c.baseX, c.baseY, 1⟩

/-- Twice a point. -/
def Curve.double (c : Curve) (q : Point) : Point :=
  let p := c.prime
  let zz := q.z * q.z % p
  let yy := q.y * q.y % p
  let s := 4 * q.x * yy % p
  let slope := 3 * Modular.sub p q.x zz * (q.x + zz) % p
  let x := Modular.sub p (slope * slope % p) (2 * s % p)
  let y := Modular.sub p (slope * Modular.sub p s x % p) (8 * yy * yy % p)
  ⟨x, y, 2 * q.y * q.z % p⟩

/-- The sum of two points. -/
def Curve.add (c : Curve) (q r : Point) : Point :=
  let p := c.prime
  if q.z = 0 then r
  else if r.z = 0 then q
  else
    let zq := q.z * q.z % p
    let zr := r.z * r.z % p
    let xq := q.x * zr % p
    let xr := r.x * zq % p
    let yq := q.y * r.z * zr % p
    let yr := r.y * q.z * zq % p
    if xq = xr then
      if yq = yr then c.double q else Point.neutral
    else
      let h := Modular.sub p xr xq
      let hh := h * h % p
      let hhh := h * hh % p
      let v := xq * hh % p
      let slope := Modular.sub p yr yq
      let x := Modular.sub p (slope * slope % p) ((hhh + 2 * v) % p)
      let y := Modular.sub p (slope * Modular.sub p v x % p) (yq * hhh % p)
      ⟨x, y, q.z * r.z * h % p⟩

/-- A multiple of a point. -/
def Curve.multiply (c : Curve) (n : Nat) (q : Point) : Point :=
  (Modular.digits n).foldl (fun result digit =>
    let twice := c.double result
    if digit then c.add twice q else twice) Point.neutral

/-- The coordinates of a point other than the neutral one. -/
def Curve.coordinates (c : Curve) (q : Point) : Nat × Nat :=
  let p := c.prime
  let inverse := Modular.inverse p q.z
  let square := inverse * inverse % p
  (q.x * square % p, q.y * square % p * inverse % p)

/-- The uncompressed form of the point that belongs to a secret scalar. -/
def Curve.publicPoint (c : Curve) (scalar : Nat) : Bytes :=
  let (x, y) := c.coordinates (c.multiply scalar c.base)
  4 :: (Bytes.ofNat c.width x ++ Bytes.ofNat c.width y)

end ClientIdentity.Weierstrass
