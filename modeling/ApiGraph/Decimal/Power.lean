/-!
# Powers and ranges

Powers of two and of ten, and the ranges of integers that fit in so many bits.
-/

namespace ApiGraph.Decimal

/-- The power of two with a natural exponent. -/
def pow2 (n : Nat) : Nat :=
  Nat.pow 2 n

/-- The power of ten with a natural exponent. -/
def pow10 (n : Nat) : Nat :=
  Nat.pow 10 n

/-- Is the integer in the signed range of that many bits and one for the sign? -/
def inSigned (bits : Nat) (n : Int) : Bool :=
  -(pow2 bits : Int) ≤ n && n < pow2 bits

/-- Is the integer in the unsigned range of that many bits? -/
def inUnsigned (bits : Nat) (n : Int) : Bool :=
  0 ≤ n && n < pow2 bits

end ApiGraph.Decimal
