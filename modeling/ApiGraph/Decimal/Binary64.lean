import ApiGraph.Decimal.Power

/-!
# Finite binary64 numbers

A finite number of the 64-bit binary format is a sign, a significand below `2 ^ 53` and a power of
two between `-1074` and `971`.  It is kept in its one canonical form: the significand is at least
`2 ^ 52` unless the power is the least one.  Results of arithmetic are the exact results rounded to
the nearest number of the format, a half going to the even significand; there is no result where
the nearest number would lie beyond the largest.
-/

namespace ApiGraph.Decimal

/-- The number `± significand * 2 ^ exponent`; zero carries a sign too. -/
structure Binary64 where
  negative : Bool
  significand : Nat
  exponent : Int
  deriving DecidableEq, Repr

/-- The integer nearest to `num / den`, a half going to the even neighbour. -/
def nearest (num den : Nat) : Nat :=
  let q := num / den
  let r := num % den
  if 2 * r < den then q
  else if den < 2 * r then q + 1
  else if q % 2 == 0 then q
  else q + 1

/-- Scale a fraction by `2 ^ -e`. -/
def scaleDown (num den : Nat) (e : Int) : Nat × Nat :=
  if 0 ≤ e then (num, den * pow2 e.toNat) else (num * pow2 (-e).toNat, den)

namespace Binary64

/-- The zero of the given sign. -/
def zero (negative : Bool) : Binary64 :=
  ⟨negative, 0, -1074⟩

def isZero (x : Binary64) : Bool :=
  x.significand == 0

def neg (x : Binary64) : Binary64 :=
  { x with negative := !x.negative }

/-- The number nearest to `± num / den`, if it is not beyond the largest. -/
def ofRatio (negative : Bool) (num den : Nat) : Option Binary64 :=
  if num == 0 then some (zero negative)
  else
    let guess : Int := (num.log2 : Int) - den.log2 - 52
    let (n, d) := scaleDown num den guess
    let e := max (if n / d < pow2 52 then guess - 1 else guess) (-1074)
    let (n, d) := scaleDown num den e
    let m := nearest n d
    let (m, e) := if m == pow2 53 then (pow2 52, e + 1) else (m, e)
    if 971 < e then none else some ⟨negative, m, e⟩

/-- Numerator and denominator of the magnitude. -/
def toRatio (x : Binary64) : Nat × Nat :=
  if 0 ≤ x.exponent then (x.significand * pow2 x.exponent.toNat, 1)
  else (x.significand, pow2 (-x.exponent).toNat)

def ofNat (n : Nat) : Option Binary64 :=
  ofRatio false n 1

def mul (x y : Binary64) : Option Binary64 :=
  let (a, b) := x.toRatio
  let (c, d) := y.toRatio
  ofRatio (x.negative != y.negative) (a * c) (b * d)

/-- The quotient by a number that is not zero. -/
def div (x y : Binary64) : Option Binary64 :=
  let (a, b) := x.toRatio
  let (c, d) := y.toRatio
  ofRatio (x.negative != y.negative) (a * d) (b * c)

/-- The number nearest to `± digits * 10 ^ exponent`, if it is not beyond the largest.  Powers so
large or so small that the result is settled by them are not computed. -/
def ofDecimal (negative : Bool) (digits : Nat) (exponent : Int) : Option Binary64 :=
  if digits == 0 then some (zero negative)
  else if 400 < exponent then none
  else if exponent + digits.log2 < -1200 then some (zero negative)
  else if 0 ≤ exponent then ofRatio negative (digits * pow10 exponent.toNat) 1
  else ofRatio negative digits (pow10 (-exponent).toNat)

end Binary64

end ApiGraph.Decimal
