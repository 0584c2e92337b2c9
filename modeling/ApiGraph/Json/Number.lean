import ApiGraph.Decimal.Shortest
import ApiGraph.Text.Digits

/-!
# JSON numbers

A number is an integer of the signed or the unsigned 64-bit range, or a binary64 number.  Written
numbers are read by `Literal.number?`: a literal without fraction and exponent is an integer if it
is in range, except for `-0`, and everything else is a binary64 number.

A binary64 number is not read as the one nearest to the literal.  The digits are gathered in an
unsigned 64-bit significand, and those that do not fit are dropped; the significand is rounded, and
then multiplied or divided by a power of ten, which rounds again.
-/

namespace ApiGraph.Json

open ApiGraph.Decimal
open ApiGraph.Text (digitsValue)

/-- An integer in the signed or the unsigned 64-bit range, or a finite float. -/
inductive Number where
  | integer (value : Int)
  | float (value : Binary64)
  deriving DecidableEq, Repr

/-- A number as it is written. -/
structure Literal where
  negative : Bool
  whole : List Char
  fraction : List Char
  /-- Is the exponent negative, and its digits. -/
  exponent : Option (Bool × List Char)
  deriving DecidableEq, Repr

/-- The largest significand that is gathered. -/
def significandBound : Nat := pow2 64

/-- Gather digits while the significand stays below its bound; the second part counts the digits
that were taken. -/
def gather : Nat → Nat → List Char → Nat × Nat
  | significand, count, [] => (significand, count)
  | significand, count, c :: r =>
    let next := 10 * significand + (c.toNat - '0'.toNat)
    if next < significandBound then gather next (count + 1) r else (significand, count)

/-- The power of ten, for exponents up to 308. -/
def powerOfTen (n : Nat) : Binary64 :=
  (Binary64.ofNat (pow10 n)).getD (.zero false)

/-- Multiply or divide by `10 ^ exponent`, by one operation if the power is within the format and
else by dividing by `10 ^ 308` repeatedly, at most `steps` times. -/
def scale : Nat → Binary64 → Int → Option Binary64
  | 0, x, _ => some x
  | steps + 1, x, exponent =>
    if exponent.natAbs ≤ 308 then
      if 0 ≤ exponent then x.mul (powerOfTen exponent.natAbs)
      else x.div (powerOfTen exponent.natAbs)
    else if x.isZero then some x
    else if 0 ≤ exponent then none
    else (x.div (powerOfTen 308)).bind fun y => scale steps y (exponent + 308)

/-- The largest exponent that is taken as written. -/
def exponentBound : Nat := pow2 31

/-- Clamp to the signed 32-bit range. -/
def clamp (n : Int) : Int :=
  max (-exponentBound) (min n (exponentBound - 1))

namespace Literal

/-- The binary64 number of the literal, if it is within the format. -/
def float? (l : Literal) : Option Binary64 :=
  let (whole, taken) := gather 0 0 l.whole
  let dropped := l.whole.length - taken
  let (significand, places) := gather whole 0 l.fraction
  let shift : Int := (dropped : Int) - places
  let magnitude : Option Binary64 :=
    match l.exponent with
    | none => (Binary64.ofNat significand).bind fun x => scale 8 x shift
    | some (down, digits) =>
      let n := digitsValue 10 digits
      if exponentBound ≤ n then
        if significand == 0 || down then some (.zero false) else none
      else
        (Binary64.ofNat significand).bind fun x =>
          scale 8 x (clamp (if down then shift - n else shift + n))
  magnitude.map fun x => if l.negative then x.neg else x

/-- The number of the literal, if it is within the format. -/
def number? (l : Literal) : Option Number :=
  let n := digitsValue 10 l.whole
  if l.fraction.isEmpty && l.exponent.isNone then
    if !l.negative then
      if n < pow2 64 then some (.integer n) else l.float?.map .float
    else if n != 0 && n ≤ pow2 63 then some (.integer (-n))
    else l.float?.map .float
  else l.float?.map .float

end Literal

/-- How a binary64 number is written: positionally from `10 ^ (low - 1)` up to, not including,
`10 ^ high`, and in scientific notation beyond. -/
structure Layout where
  low : Int
  high : Int

/-- Positional from `0.00001` up to, not including, `10000000000000000`. -/
def layout : Layout := ⟨-4, 16⟩

/-- Write `digits * 10 ^ exponent`.  A positional number always has a digit after the point, and
an exponent always has a sign. -/
def Layout.write (l : Layout) (d : Digits) : List Char :=
  let ds := Nat.toDigits 10 d.digits
  let point : Int := ds.length + d.exponent
  if l.low ≤ point && point ≤ l.high then
    if 0 ≤ d.exponent then ds ++ List.replicate d.exponent.toNat '0' ++ ['.', '0']
    else if 0 < point then ds.take point.toNat ++ '.' :: ds.drop point.toNat
    else '0' :: '.' :: List.replicate (-point).toNat '0' ++ ds
  else
    let e := point - 1
    let sign := if e < 0 then '-' else '+'
    let mantissa := match ds with
      | [] => []
      | [c] => [c]
      | c :: r => c :: '.' :: r
    mantissa ++ 'e' :: sign :: Nat.toDigits 10 e.natAbs

/-- The text of a binary64 number. -/
def floatText (x : Binary64) : List Char :=
  let magnitude := if x.isZero then "0.0".toList else layout.write x.shortest
  if x.negative then '-' :: magnitude else magnitude

/-- The text of an integer. -/
def integerText (n : Int) : List Char :=
  let digits := Nat.toDigits 10 n.natAbs
  if n < 0 then '-' :: digits else digits

def Number.text : Number → List Char
  | .integer n => integerText n
  | .float x => floatText x

end ApiGraph.Json
