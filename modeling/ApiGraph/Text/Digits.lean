/-!
# Digits and signs

Numbers as they are written: the values of digits, the number that a list of them denotes, and the
sign in front.
-/

namespace ApiGraph.Text

/-- The value of a hexadecimal digit. -/
def hexValue? (c : Char) : Option Nat :=
  if c.isDigit then some (c.toNat - '0'.toNat)
  else if 'a' ≤ c && c ≤ 'f' then some (c.toNat - 'a'.toNat + 10)
  else if 'A' ≤ c && c ≤ 'F' then some (c.toNat - 'A'.toNat + 10)
  else none

/-- Is the character a digit of the base, which is at most sixteen? -/
def isDigitOf (base : Nat) (c : Char) : Bool :=
  (hexValue? c).any (· < base)

/-- The number that digits denote in a base. -/
def digitsValue (base : Nat) (cs : List Char) : Nat :=
  cs.foldl (fun n c => n * base + (hexValue? c).getD 0) 0

/-- The number that a text of digits denotes in a base; there is at least one digit. -/
def number? (base : Nat) (cs : List Char) : Option Nat :=
  if !cs.isEmpty && cs.all (isDigitOf base) then some (digitsValue base cs) else none

/-- The character whose code hexadecimal digits give. -/
def hexChar? (cs : List Char) : Option Char :=
  (number? 16 cs).bind fun n => if n.isValidChar then some (Char.ofNat n) else none

/-- Take the sign off a number: whether it is a minus, and the rest. -/
def takeSign : List Char → Bool × List Char
  | '-' :: r => (true, r)
  | '+' :: r => (false, r)
  | cs => (false, cs)

end ApiGraph.Text
