namespace ClientIdentity.Modular

/-- The binary digits of a number, highest first. -/
def digits (n : Nat) : List Bool :=
  (Nat.toDigits 2 n).map (· == '1')

/-- The power of `base`, with products taken modulo `m`. -/
def power (m base exponent : Nat) : Nat :=
  (digits exponent).foldl (fun result digit =>
    let square := result * result % m
    if digit then square * base % m else square) (1 % m)

/-- The inverse of a number that the prime `p` does not divide, by Fermat's theorem. -/
def inverse (p a : Nat) : Nat :=
  power p a (p - 2)

/-- The difference modulo `m` of two numbers below `m`. -/
def sub (m a b : Nat) : Nat :=
  (a + m - b) % m

end ClientIdentity.Modular
