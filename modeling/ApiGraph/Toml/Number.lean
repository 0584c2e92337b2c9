import ApiGraph.Decimal.Binary64
import ApiGraph.Toml.Text
import ApiGraph.Toml.Value

/-!
# Numbers, dates and times of TOML

An integer is written in base ten, or behind `0x`, `0o` or `0b` in another base, and lies in the
signed 64-bit range.  A float has a fraction, an exponent or both.  An underscore may stand between
two digits.  A date has a day that its month has, and may be followed by a time with an offset.
-/

namespace ApiGraph.Toml

open ApiGraph.Text (digitsValue isDigitOf takeSign)

/-- A value that was read, and the rest. -/
abbrev Scanned := Option (Value × List Char)

/-! ## Digits -/

/-- Read digits, of which there is at least one; an underscore may stand between two of them. -/
def digits? (isDigit : Char → Bool) : List Char → Taken
  | [] => none
  | c :: '_' :: r => if isDigit c then (digits? isDigit r).cons c else none
  | c :: r =>
    if isDigit c then
      if r.head?.any isDigit then (digits? isDigit r).cons c else some ([c], r)
    else none

/-- Read the digits of a decimal integer: a zero alone, or digits that begin with another one. -/
def decimal? : List Char → Taken
  | '0' :: r => some (['0'], r)
  | cs => digits? Char.isDigit cs

/-! ## Integers -/

/-- An integer in the signed 64-bit range. -/
def integerOf (n : Int) (r : List Char) : Scanned :=
  if Decimal.inSigned 63 n then some (.integer n, r) else none

/-- Read the digits of an integer behind the mark of its base. -/
def basedInteger? (base : Nat) (cs : List Char) : Scanned :=
  (digits? (isDigitOf base) cs).bind fun (ds, r) => integerOf (digitsValue base ds) r

/-- Read an integer. -/
def integer? : List Char → Scanned
  | '0' :: 'x' :: r => basedInteger? 16 r
  | '0' :: 'o' :: r => basedInteger? 8 r
  | '0' :: 'b' :: r => basedInteger? 2 r
  | cs =>
    let (negative, r) := takeSign cs
    (decimal? r).bind fun (ds, r) =>
      integerOf (if negative then -digitsValue 10 ds else digitsValue 10 ds) r

/-! ## Floats -/

/-- Read an exponent, if there is one. -/
def exponent? : List Char → Option (Option Int × List Char)
  | c :: r =>
    if c == 'e' || c == 'E' then
      let (negative, r) := takeSign r
      (digits? Char.isDigit r).map fun (ds, r) =>
        (some (if negative then -digitsValue 10 ds else digitsValue 10 ds), r)
    else some (none, c :: r)
  | [] => some (none, [])

/-- Read a fraction, if there is one. -/
def fraction? : List Char → Option (Option (List Char) × List Char)
  | '.' :: r => (digits? Char.isDigit r).map fun (ds, r) => (some ds, r)
  | cs => some (none, cs)

/-- Read a float that is neither infinite nor undefined.  One beyond the format is refused if it is
positive. -/
def finiteFloat? (cs : List Char) : Option (List Char) := do
  let (negative, r) := takeSign cs
  let (whole, r) ← decimal? r
  let (fraction, r) ← fraction? r
  let (exponent, r) ← exponent? r
  if fraction.isNone && exponent.isNone then none
  else
    let places := fraction.getD []
    let number := Decimal.Binary64.ofDecimal negative (digitsValue 10 (whole ++ places))
      (exponent.getD 0 - places.length)
    if number.isSome || negative then return r else none

/-- Go past a float. -/
def skipFloat? (cs : List Char) : Option (List Char) :=
  match (takeSign cs).2 with
  | 'i' :: 'n' :: 'f' :: r => some r
  | 'n' :: 'a' :: 'n' :: r => some r
  | _ => finiteFloat? cs

/-! ## Dates and times -/

/-- Read a number of `count` digits between two bounds. -/
def fixed? (count low high : Nat) (cs : List Char) : Option (Nat × List Char) :=
  let ds := cs.take count
  let n := digitsValue 10 ds
  if ds.length == count && ds.all Char.isDigit && low ≤ n && n ≤ high then some (n, cs.drop count)
  else none

/-- Go past a character. -/
def expect? (c : Char) (cs : List Char) : Option (List Char) :=
  if cs.head? == some c then some cs.tail else none

/-- How many days the month of a year has. -/
def daysIn (year month : Nat) : Nat :=
  if month == 2 then
    if year % 4 == 0 && (year % 100 != 0 || year % 400 == 0) then 29 else 28
  else if month == 4 || month == 6 || month == 9 || month == 11 then 30
  else 31

/-- Go past a date. -/
def skipDate? (cs : List Char) : Option (List Char) := do
  let (year, r) ← fixed? 4 0 9999 cs
  let (month, r) ← fixed? 2 1 12 (← expect? '-' r)
  let (_, r) ← fixed? 2 1 (daysIn year month) (← expect? '-' r)
  return r

/-- Go past the fraction of a second, if there is one. -/
def skipFraction : List Char → List Char
  | '.' :: c :: r => if c.isDigit then r.dropWhile Char.isDigit else '.' :: c :: r
  | cs => cs

/-- Go past a time. -/
def skipTime? (cs : List Char) : Option (List Char) := do
  let (_, r) ← fixed? 2 0 23 cs
  let (_, r) ← fixed? 2 0 59 (← expect? ':' r)
  let (_, r) ← fixed? 2 0 60 (← expect? ':' r)
  return skipFraction r

/-- Go past an offset, if there is one. -/
def skipOffset? : List Char → Option (List Char)
  | 'Z' :: r => some r
  | 'z' :: r => some r
  | c :: r =>
    if c == '+' || c == '-' then do
      let (_, r) ← fixed? 2 0 23 r
      let (_, r) ← fixed? 2 0 59 (← expect? ':' r)
      return r
    else some (c :: r)
  | [] => some []

/-- Go past the time behind a date, if there is one. -/
def skipTimeOfDate? : List Char → Option (List Char)
  | c :: r =>
    if c == 'T' || c == 't' then (skipTime? r).bind skipOffset?
    else if c == ' ' then
      match skipTime? r with
      | some r => skipOffset? r
      | none => some (c :: r)
    else some (c :: r)
  | [] => some []

/-- Go past a date with or without a time, or a time alone. -/
def skipDateTime? (cs : List Char) : Option (List Char) :=
  match skipDate? cs with
  | some r => skipTimeOfDate? r
  | none => skipTime? cs

/-! ## Values -/

/-- What was gone past, as a value. -/
def passed (make : List Char → Value) (cs r : List Char) : Value × List Char :=
  (make (cs.take (cs.length - r.length)), r)

/-- Read a date, a time, a float or an integer. -/
def number? (cs : List Char) : Scanned :=
  match skipDateTime? cs, skipFloat? cs with
  | some r, _ => some (passed .dateTime cs r)
  | none, some r => some (passed .float cs r)
  | none, none => integer? cs

end ApiGraph.Toml
