import ApiGraph.Decimal.Binary64

/-!
# Shortest decimals

Among the decimals that are read back as a given binary64 number, `shortest` finds those with the
fewest digits and takes of them the one nearest to the number, on a tie the one whose last digit is
even.

A decimal is read back as the number if it lies between the midpoints to the number's neighbours,
a midpoint itself counting if the number's significand is even.  If a grid of decimals with some
count of digits has a point in that interval, then one of the two grid points around the number is
in it, so only these two are looked at.
-/

namespace ApiGraph.Decimal

/-- The decimal `digits * 10 ^ exponent`. -/
structure Digits where
  digits : Nat
  exponent : Int
  deriving DecidableEq, Repr

/-- How many digits the natural number has in base ten. -/
def decimalLength (n : Nat) : Nat :=
  (Nat.toDigits 10 n).length

/-- The least `k` with `num / den < 10 ^ k`, for a fraction that is not an inverse power of ten. -/
def decimalPoint (num den : Nat) : Int :=
  if den ≤ num then decimalLength (num / den) else 1 - (decimalLength (den / num) : Int)

/-- The numbers that round to a binary64 number, as multiples of `1 / den`: its lower and upper
end, and whether the ends themselves belong to it. -/
structure Interval where
  low : Nat
  value : Nat
  high : Nat
  den : Nat
  closed : Bool

/-- The interval of the numbers that round to `x`.  Below a power of two the neighbour is half as
far away as above it. -/
def Interval.around (x : Binary64) : Interval :=
  let below := if x.significand == pow2 52 && -1074 < x.exponent then 1 else 2
  let e := x.exponent - 2
  let scale := if 0 ≤ e then pow2 e.toNat else 1
  { low := (4 * x.significand - below) * scale
    value := 4 * x.significand * scale
    high := (4 * x.significand + 2) * scale
    den := if 0 ≤ e then 1 else pow2 (-e).toNat
    closed := x.significand % 2 == 0 }

/-- Does `d * 10 ^ p` lie in the interval? -/
def Interval.holds (i : Interval) (d : Nat) (p : Int) : Bool :=
  let a := if 0 ≤ p then d * pow10 p.toNat * i.den else d * i.den
  let unit := if 0 ≤ p then 1 else pow10 (-p).toNat
  if i.closed then i.low * unit ≤ a && a ≤ i.high * unit
  else i.low * unit < a && a < i.high * unit

/-- The point of the grid of multiples of `10 ^ p` that reads back as the number of the interval,
the nearer one if both neighbours of the number do. -/
def Interval.onGrid (i : Interval) (p : Int) : Option Nat :=
  let num := if 0 ≤ p then i.value else i.value * pow10 (-p).toNat
  let den := if 0 ≤ p then i.den * pow10 p.toNat else i.den
  let d := num / den
  match i.holds d p && d != 0, i.holds (d + 1) p with
  | true, true => some (nearest num den)
  | true, false => some d
  | false, true => some (d + 1)
  | false, false => none

/-- Move zeros at the end of the digits into the exponent, at most `count` of them. -/
def stripZeros : Nat → Nat → Int → Digits
  | 0, d, p => ⟨d, p⟩
  | count + 1, d, p => if d % 10 == 0 then stripZeros count (d / 10) (p + 1) else ⟨d, p⟩

/-- The first grid with a point in the interval, of those with `n`, `n + 1`, … digits, `tries`
of them. -/
def Interval.search (i : Interval) (point : Int) : Nat → Nat → Digits
  | 0, n => ⟨i.value / i.den, n⟩
  | tries + 1, n =>
    match i.onGrid (point - n) with
    | some d => stripZeros n d (point - n)
    | none => i.search point tries (n + 1)

/-- The shortest decimal that reads back as the magnitude of a number other than zero.  Seventeen
digits always do. -/
def Binary64.shortest (x : Binary64) : Digits :=
  let i := Interval.around x
  i.search (decimalPoint i.value i.den) 17 1

end ApiGraph.Decimal
