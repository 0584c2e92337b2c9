/-!
# Punycode

A label with other characters than those of ASCII is written as its ASCII characters, a hyphen,
and digits in base 36 that tell where the others go.  They go in by ascending code.  Each is given
by a number of steps, a step leading to the next place in the label, and behind the last place to
the first place with the next code.

The number of steps is written with the lowest digit first.  A digit below the threshold of its
place is the last one, and the thresholds adapt to the numbers that were read.
-/

namespace ApiGraph.Url.Punycode

/-- The value of a digit. -/
def digit? (c : Char) : Option Nat :=
  if 'a' ≤ c && c ≤ 'z' then some (c.toNat - 'a'.toNat)
  else if c.isDigit then some (c.toNat - '0'.toNat + 26)
  else none

/-- The threshold of the place that is `k` below the next multiple of 36. -/
def threshold (k bias : Nat) : Nat :=
  if k ≤ bias then 1 else min 26 (k - bias)

/-- Read a number whose digits so far have the value `sum`; the next one counts `weight` times. -/
def steps? (bias : Nat) : Nat → Nat → Nat → List Char → Option (Nat × List Char)
  | _, _, _, [] => none
  | k, weight, sum, c :: r => do
    let d ← digit? c
    let t := threshold k bias
    let sum := sum + d * weight
    if d < t then return (sum, r) else steps? bias (k + 36) (weight * (36 - t)) sum r

/-- Divide until the number is small; the second result counts 36 for each division. -/
def shrink : Nat → Nat → Nat × Nat
  | 0, delta => (delta, 0)
  | n + 1, delta =>
    if delta ≤ 455 then (delta, 0)
    else
      let (small, count) := shrink n (delta / 35)
      (small, count + 36)

/-- The bias behind a number of steps, where the label has `size` characters now. -/
def adapt (delta size : Nat) (isFirst : Bool) : Nat :=
  let delta := if isFirst then delta / 700 else delta / 2
  let (small, count) := shrink delta (delta + delta / size)
  count + 36 * small / (small + 38)

/-- Put in the other characters, with a bound on their number.  Only the first of them looks for its
place from the start of the label. -/
def insertAll (bound : Nat) (bias code place : Nat) (label cs : List Char) : Option (List Char) :=
  match bound, cs with
  | _, [] => some label
  | 0, _ => none
  | bound + 1, cs => do
    let (steps, r) ← steps? bias 36 1 0 cs
    let size := label.length + 1
    let code' := code + (place + steps) / size
    let place' := (place + steps) % size
    if code'.isValidChar then
      insertAll bound (adapt steps size (place == 0)) code' (place' + 1)
        (label.insertIdx place' (Char.ofNat code')) r
    else none

/-- The text before the last hyphen and the text behind it; without a hyphen or with nothing before
it everything is behind. -/
def splitLast (cs : List Char) : List Char × List Char :=
  let behind := (cs.reverse.takeWhile (· != '-')).reverse
  let before := cs.take (cs.length - behind.length - 1)
  if before.isEmpty then ([], cs) else (before, behind)

/-- The label that a text stands for. -/
def decode? (cs : List Char) : Option (List Char) :=
  let (basic, rest) := splitLast cs
  if basic.all (·.toNat < 128) then insertAll cs.length 72 128 0 basic rest else none

end ApiGraph.Url.Punycode
